import Catena.Proofs.Collecting
import Catena.Proofs.Printed
import Catena.Proofs.Session

set_option autoImplicit false

/-!
Printed values read back. A program that is made of the words of a value pushes a value that equals
it: literals are pushed one by one, brackets collect what stands between them, and the brackets of
arrays inside a quotation wait as markers.
-/

namespace Catena

/-- Equal values, also as parts of one container. -/
def Value.Equals (v w : Value) : Prop := ∀ shared, Value.equalIn shared v w = true

def EqualsAll (vs ws : List Value) : Prop := ∀ shared, Value.equalItems shared vs ws = true

theorem EqualsAll.nil : EqualsAll [] [] := fun _ => rfl

theorem EqualsAll.cons {v w : Value} {vs ws : List Value} (head : v.Equals w)
    (tail : EqualsAll vs ws) : EqualsAll (v :: vs) (w :: ws) := by
  intro shared
  rw [Value.equalItems, head shared, tail shared]
  rfl

/-! ### Parameter lists -/

theorem Token.readAfter_name {t : Token} {text : String} (lexeme : t.lexeme = .name text)
    (seen : List Param) (rest : List Value) :
    Signature.readAfter seen (t.content .standard :: rest) =
      Signature.readAfter (⟨text, none⟩ :: seen) rest := by
  rw [Token.content, lexeme]
  simp only
  cases found : Registry.standard.get? text with
  | none => rfl
  | some b =>
    have named : b.name = text := (Registry.get?_standard found).1
    rw [← named]
    rfl

theorem Token.content_type {t : Token} {text : String} (r : Registry)
    (lexeme : t.lexeme = .type text) : t.content r = .sym text := by
  rw [Token.content, lexeme]

theorem readAfter_params {params : List Param} {tokens : List Token}
    (lexemes : tokens.map Token.lexeme = params.flatMap Param.lexemes) (seen : List Param)
    (rest : List Value) :
    Signature.readAfter seen (tokens.map (Token.content .standard) ++ rest) =
      Signature.readAfter (params.reverse ++ seen) rest := by
  induction params generalizing tokens seen with
  | nil =>
    obtain rfl := List.map_eq_nil_iff.1 lexemes
    rfl
  | cons p params ih =>
    obtain ⟨name, type⟩ := p
    rw [List.flatMap_cons, Param.lexemes, List.cons_append] at lexemes
    obtain ⟨t, tokens, rfl, named, after⟩ := List.map_eq_cons_iff.1 lexemes
    rw [List.map_cons, List.cons_append, Token.readAfter_name named, List.reverse_cons,
      List.append_assoc, List.singleton_append]
    cases type with
    | none => exact ih after _
    | some type =>
      obtain ⟨u, tokens, rfl, typed, after⟩ := List.map_eq_cons_iff.1 after
      rw [List.map_cons, Token.content_type _ typed]
      exact ih after _

theorem returnTypes_types {types : List String} {tokens : List Token}
    (lexemes : tokens.map Token.lexeme = types.map .type) :
    Signature.returnTypes (tokens.map (Token.content .standard)) = .ok types := by
  induction types generalizing tokens with
  | nil =>
    obtain rfl := List.map_eq_nil_iff.1 lexemes
    rfl
  | cons type types ih =>
    obtain ⟨t, tokens, rfl, typed, after⟩ := List.map_eq_cons_iff.1 lexemes
    rw [List.map_cons, Token.content_type _ typed, Signature.returnTypes, ih after]

theorem ofValues_lexemes {s : Signature} {tokens : List Token}
    (lexemes : tokens.map Token.lexeme = s.lexemes) :
    Signature.ofValues (tokens.map (Token.content .standard)) = .ok s := by
  obtain ⟨params, returns⟩ := s
  obtain ⟨names, results, rfl, first, second⟩ := List.map_eq_append_iff.1 lexemes
  rw [Signature.ofValues, List.map_append, readAfter_params first]
  cases returns with
  | none =>
    obtain rfl := List.map_eq_nil_iff.1 second
    simp [Signature.readAfter]
  | some types =>
    obtain ⟨t, results, rfl, arrow, types⟩ := List.map_eq_cons_iff.1 second
    have content : t.content .standard = .marker .arrow := by rw [Token.content, arrow]
    rw [List.map_cons, content, Signature.readAfter, returnTypes_types types]
    simp

theorem parameterList_lexemes (s : Signature) : ParameterList s.lexemes := by
  obtain ⟨params, returns⟩ := s
  induction params with
  | nil =>
    cases returns with
    | none => exact .nil
    | some types =>
      refine .returns fun type member => ?_
      obtain ⟨text, _, rfl⟩ := List.mem_map.1 member
      rfl
  | cons p params ih =>
    obtain ⟨name, type⟩ := p
    cases type with
    | none => exact .name ih
    | some type => exact .typed rfl ih

/-! ### Elements of quotations -/

/-- The words of a value become an equal value when they are collected. -/
def Value.Collects (v : Value) : Prop :=
  ∀ tokens : List Token, tokens.map Token.lexeme = v.lexemes → ∀ k, ∃ v' k₁, v'.Equals v ∧
    ∀ rest code k', Collected .standard k₁ rest code k' →
      Collected .standard k (tokens ++ rest) (v' :: code) k'

theorem collects_word {v : Value} {lexeme : Lexeme} (word : v.lexemes = [lexeme])
    (free : lexeme.delimits = false)
    (equals : ∀ t : Token, t.lexeme = lexeme → (t.content .standard).Equals v) : v.Collects := by
  intro tokens lexemes k
  rw [word] at lexemes
  obtain ⟨t, rfl, rfl⟩ := List.map_eq_singleton_iff.1 lexemes
  exact ⟨_, k, equals t rfl, fun _ _ _ rest => .plain free rest⟩

/-- The tokens of a container. -/
theorem exists_group {tokens : List Token} {first last : Lexeme} {lexemes : List Lexeme}
    (group : tokens.map Token.lexeme = first :: (lexemes ++ [last])) :
    ∃ opening inner closing, tokens = opening :: (inner ++ [closing]) ∧ opening.lexeme = first ∧
      closing.lexeme = last ∧ inner.map Token.lexeme = lexemes := by
  obtain ⟨opening, tokens, rfl, opens, after⟩ := List.map_eq_cons_iff.1 group
  obtain ⟨inner, ending, rfl, inside, ends⟩ := List.map_eq_append_iff.1 after
  obtain ⟨closing, rfl, closes⟩ := List.map_eq_singleton_iff.1 ends
  exact ⟨opening, inner, closing, rfl, opens, closes, inside⟩

theorem collects_signature (s : Signature) : (Value.signature s).Collects := by
  intro tokens lexemes k
  obtain ⟨opening, inner, closing, rfl, opens, closes, inside⟩ := exists_group lexemes
  refine ⟨.signature s, k, fun shared => by simp [Value.equalIn], fun rest code k' after => ?_⟩
  rw [List.cons_append, List.append_assoc, List.singleton_append]
  exact .params opens closes (inside ▸ parameterList_lexemes s) (ofValues_lexemes inside) after

/-- Values that follow one another. -/
theorem collected_all {items : List Value} (each : ∀ v ∈ items, v.Collects) {tokens : List Token}
    (lexemes : tokens.map Token.lexeme = Value.lexemesAll items) (k : Nat) :
    ∃ body k', Collected .standard k tokens body k' ∧ EqualsAll body items := by
  induction items generalizing tokens k with
  | nil =>
    obtain rfl := List.map_eq_nil_iff.1 lexemes
    exact ⟨[], k, .nil, .nil⟩
  | cons v items ih =>
    obtain ⟨first, others⟩ := List.forall_mem_cons.1 each
    obtain ⟨here, after, rfl, words, more⟩ := List.map_eq_append_iff.1 lexemes
    obtain ⟨v', k₁, equals, collected⟩ := first here words k
    obtain ⟨body, k', rest, equalsAll⟩ := ih others more k₁
    exact ⟨v' :: body, k', collected after body k' rest, .cons equals equalsAll⟩

theorem collects_quote {id : Nat} {code : List Value} (each : ∀ v ∈ code, v.Collects) :
    (Value.quote id code).Collects := by
  intro tokens lexemes k
  obtain ⟨opening, inner, closing, rfl, opens, closes, inside⟩ := exists_group lexemes
  obtain ⟨body, k₁, collected, equals⟩ := collected_all each inside k
  refine ⟨.quote k₁ body, k₁ + 1, fun shared => ?_, fun rest code k' after => ?_⟩
  · rw [Value.equalIn]
    exact equals _
  · rw [List.cons_append, List.append_assoc, List.singleton_append]
    exact .quote opens closes collected after

/-- A literal other than a parameter list is one word, which says what it says everywhere. -/
theorem Literal.word {v : Value} (literal : Literal v) :
    (∃ s, v = .signature s) ∨ ∃ lexeme, v.lexemes = [lexeme] ∧ lexeme.delimits = false ∧
      (∀ text, lexeme ≠ .name text) ∧ lexeme ≠ .closing .array ∧
      ∀ (r : Registry) (t : Token), t.lexeme = lexeme → t.content r = v := by
  cases literal with
  | signature => exact .inl ⟨_, rfl⟩
  | _ =>
    refine .inr ⟨_, rfl, rfl, by simp, by simp, fun r t lexeme => ?_⟩
    rw [Token.content, lexeme]

theorem Literal.equals {v : Value} (literal : Literal v) : v.Equals v := by
  intro shared
  cases literal <;> simp [Value.equalIn]

theorem Literal.collects {v : Value} (literal : Literal v) : v.Collects := by
  rcases literal.word with ⟨s, rfl⟩ | ⟨lexeme, word, free, _, _, content⟩
  · exact collects_signature s
  · refine collects_word word free fun t lexeme => ?_
    rw [content _ t lexeme]
    exact literal.equals

theorem Element.collects {v : Value} (element : Element v) : v.Collects := by
  induction element with
  | literal literal => exact literal.collects
  | @ref name _ unknown _ =>
    refine collects_word rfl rfl fun t lexeme shared => ?_
    simp [Token.content, lexeme, unknown, Value.equalIn]
  | @op b _ known =>
    obtain ⟨found, get⟩ := Option.isSome_iff_exists.1 known
    have named : found.name = b.name := (Registry.get?_standard get).1
    refine collects_word rfl rfl fun t lexeme shared => ?_
    have content : t.content .standard = .op (.builtin found) t.origin := by
      rw [Token.content, lexeme]
      simp only [Operation.name, get]
    rw [content, Value.equalIn, Operation.name, Operation.name, named]
    exact beq_self_eq_true _
  | @marker m quote params =>
    cases m with
    | quoteOpen => contradiction
    | paramsOpen => contradiction
    | _ =>
      refine collects_word rfl rfl fun t lexeme shared => ?_
      rw [Token.content, lexeme]
      rfl
  | quote _ ih => exact collects_quote ih

/-! ### Values in a program -/

/-- Outside of quotations these tokens push these values; identities are given out from `k` on. -/
def Pushes (k : Nat) (tokens : List Token) (values : List Value) (k' : Nat) : Prop :=
  ∀ m : Machine, m.registry = .standard → m.nextId = k → m.operands.floors = [] →
    m.openQuotes = 0 → m.Takes tokens values k'

theorem Pushes.append {k k₁ k' : Nat} {a b : List Token} {u v : List Value}
    (first : Pushes k a u k₁) (second : Pushes k₁ b v k') : Pushes k (a ++ b) (u ++ v) k' := by
  intro m builtins next floors free
  refine (first m builtins next floors free).append fun m₁ took => ?_
  cases took with
  | intro => exact second _ builtins rfl floors free

theorem Machine.took_array {m : Machine} {opening closing : Token} {inner : List Token}
    {values : List Value} {k₁ : Nat} (opens : opening.lexeme = .opening .array)
    (closes : closing.lexeme = .closing .array) (floors : m.operands.floors = [])
    (free : m.openQuotes = 0) (inside : (m.within .array opening.origin).Takes inner values k₁)
    (others : ∀ v ∈ values, Exec.isMarker .arrayOpen v = false) (rest : List Token) :
    ∃ m', m.Took [.array k₁ values] (k₁ + 1) m' ∧
      Relation.TransGen Ticks (m.load (opening :: (inner ++ closing :: rest))) (m'.load rest) := by
  refine took_group opens closes (by simp [free]) floors inside others ?_ rest
  rintro m₁ s rfl popped
  exact closeContainer_array popped

/-- The words of a value push an equal value. -/
def Value.ReadsBack (v : Value) : Prop :=
  ∀ tokens : List Token, tokens.map Token.lexeme = v.lexemes → ∀ k, ∃ v' k', v'.Equals v ∧
    Exec.isMarker .arrayOpen v' = false ∧ Pushes k tokens [v'] k'

theorem Literal.readsBack {v : Value} (literal : Literal v) : v.ReadsBack := by
  intro tokens lexemes k
  rcases literal.word with ⟨s, rfl⟩ | ⟨lexeme, word, free, unnamed, open', content⟩
  · obtain ⟨opening, inner, closing, rfl, opens, closes, inside⟩ := exists_group lexemes
    refine ⟨.signature s, k, literal.equals, rfl, ?_⟩
    rintro m builtins rfl floors -
    refine .group (Machine.took_params opens closes floors
      (inside ▸ parameterList_lexemes s) ?_)
    rw [builtins]
    exact ofValues_lexemes inside
  · rw [word] at lexemes
    obtain ⟨t, rfl, rfl⟩ := List.map_eq_singleton_iff.1 lexemes
    refine ⟨v, k, literal.equals, by cases literal <;> rfl, ?_⟩
    rintro m - rfl - - rest
    obtain ⟨m', took, ticks⟩ := Machine.took_token (m := m) free
      (fun text named => absurd named (unnamed text)) (fun closes => absurd closes open') rest
    rw [content _ t rfl] at took
    exact ⟨m', took, ticks.to_reflTransGen⟩

theorem readsBack_quote {id : Nat} {code : List Value} (elements : ∀ v ∈ code, Element v) :
    (Value.quote id code).ReadsBack := by
  intro tokens lexemes k
  obtain ⟨opening, inner, closing, rfl, opens, closes, inside⟩ := exists_group lexemes
  obtain ⟨body, k₁, collected, equals⟩ :=
    collected_all (fun v member => (elements v member).collects) inside k
  refine ⟨.quote k₁ body, k₁ + 1, fun shared => ?_, rfl, ?_⟩
  · rw [Value.equalIn]
    exact equals _
  · rintro m builtins rfl floors -
    rw [← builtins] at collected
    exact .group (Machine.took_quote opens closes floors collected.takes collected.isOpening)

theorem pushes_all {items : List Value} (each : ∀ v ∈ items, v.ReadsBack) {tokens : List Token}
    (lexemes : tokens.map Token.lexeme = Value.lexemesAll items) (k : Nat) :
    ∃ values k', EqualsAll values items ∧
      (∀ v ∈ values, Exec.isMarker .arrayOpen v = false) ∧ Pushes k tokens values k' := by
  induction items generalizing tokens k with
  | nil =>
    obtain rfl := List.map_eq_nil_iff.1 lexemes
    refine ⟨[], k, .nil, List.forall_mem_nil _, ?_⟩
    rintro m - rfl - -
    exact m.takes_nil
  | cons v items ih =>
    obtain ⟨first, others⟩ := List.forall_mem_cons.1 each
    obtain ⟨here, after, rfl, words, more⟩ := List.map_eq_append_iff.1 lexemes
    obtain ⟨v', k₁, equals, free, pushes⟩ := first here words k
    obtain ⟨values, k', equalsAll, frees, rest⟩ := ih others more k₁
    exact ⟨v' :: values, k', .cons equals equalsAll, List.forall_mem_cons.2 ⟨free, frees⟩,
      pushes.append rest⟩

theorem readsBack_array {id : Nat} {items : List Value} (each : ∀ v ∈ items, v.ReadsBack) :
    (Value.array id items).ReadsBack := by
  intro tokens lexemes k
  obtain ⟨opening, inner, closing, rfl, opens, closes, inside⟩ := exists_group lexemes
  obtain ⟨values, k₁, equals, frees, pushes⟩ := pushes_all each inside k
  refine ⟨.array k₁ values, k₁ + 1, fun shared => ?_, rfl, ?_⟩
  · rw [Value.equalIn]
    exact equals _
  · intro m builtins next floors free
    have inside : (m.within .array opening.origin).Takes inner values k₁ :=
      pushes _ builtins next floors free
    exact .group (Machine.took_array opens closes floors free inside frees)

theorem Expressible.readsBack {v : Value} (expressible : Expressible v) : v.ReadsBack := by
  induction expressible with
  | literal literal => exact literal.readsBack
  | quote elements => exact readsBack_quote elements
  | array _ ih => exact readsBack_array ih

/-! ### Whole programs -/

theorem Machine.stops_of_ticks {m m₁ m' : Machine} {s : Step}
    (ticks : Relation.ReflTransGen Ticks m m₁) (stops : m₁.Stops s m') : m.Stops s m' := by
  induction ticks using Relation.ReflTransGen.head_induction_on with
  | refl => exact stops
  | head tick _ ih =>
    obtain ⟨limit, ran⟩ := ih
    refine ⟨limit + 1, ?_⟩
    rw [run_of_checkpoint (step_of_turn (by rw [heed, tick.1]) tick.2)]
    exact ran

theorem Machine.stops_load_nil (m : Machine) (idle : m.isCollecting = false) :
    (m.load []).Stops .done { m with frames := .empty, control := .none } := by
  have through : (m.load []).Proceeds (fun _ _ => True) .done
      { m with frames := .empty, control := .none } := by
    refine .more rfl trivial (.last ?_ trivial)
    change ending (if m.isCollecting then _ else _) = _
    rw [idle]
    rfl
  refine ⟨1, ?_⟩
  have last : (m.load []).step = (.done, _) := through.proceed_eq
  rw [run, last]

/-- A program that only pushes values comes to its end. -/
theorem Machine.Takes.stops {m : Machine} {tokens : List Token} {values : List Value} {k : Nat}
    (takes : m.Takes tokens values k) (idle : m.isCollecting = false) :
    ∃ m', (m.load tokens).Stops .done m' ∧
      m'.operands.toList = m.operands.toList ++ values := by
  obtain ⟨m', took, ticks⟩ := takes []
  rw [List.append_nil] at ticks
  cases took with
  | intro items =>
    refine ⟨_, stops_of_ticks ticks (stops_load_nil _ idle), ?_⟩
    simp [Operands.toList, items]

/-- Printed values read back: the text that a value is shown as is a program that pushes exactly one
value, which equals it. -/
theorem display_reads_back {v : Value} (expressible : Expressible v) :
    ∃ tokens m' v', tokenize v.display = .ok tokens ∧
      ((Machine.new .standard).load tokens).Stops .done m' ∧
      m'.operands.toList = [v'] ∧ (v' == v) = true := by
  have spells := expressible.shows [] endsWord_nil
  rw [List.append_nil] at spells
  obtain ⟨tokens, scanned, lexemes⟩ := spells.tokenize
  obtain ⟨v', k, equals, _, pushes⟩ := expressible.readsBack tokens lexemes 0
  have takes := pushes (.new .standard) rfl rfl rfl rfl
  obtain ⟨m', stops, operands⟩ := takes.stops rfl
  exact ⟨tokens, m', v', scanned, stops, operands, equals false⟩

/-- An array with a literal of each kind and a quotation that makes an array. -/
def Value.various : Value :=
  .array 5 [.int (-3), .bool true, .nil, .str "a\n\"", .sym "x-y",
    .signature ⟨[⟨"a", some "Int"⟩, ⟨"b", none⟩], some ["Str"]⟩,
    .quote 2 [.marker .arrayOpen, .ref "f" .none, .quote 1 [.marker .arrow], .marker .arrayClose,
      .op (.builtin ⟨"+", .primitive (.arithmetic .add)⟩) .none]]

theorem Value.expressible_various : Expressible .various := by
  have a : IsName "a" := isName_of_first? (by decide)
  have b : IsName "b" := isName_of_first? (by decide)
  have f : IsName "f" := isName_of_first? (by decide)
  have signature : Signature.Expressible
      ⟨[⟨"a", some "Int"⟩, ⟨"b", none⟩], some ["Str"]⟩ := by
    have types : IsWord "Int".toList ∧ IsWord "Str".toList := by decide
    exact ⟨by simp [a, b], by simpa using types.1, by simpa using types.2⟩
  have writable : ∀ c ∈ "a\n\"".toList, Writable c := by
    simp only [String.reduceToList, List.forall_mem_cons, List.not_mem_nil, false_implies,
      implies_true, and_true]
    decide
  have arrow : ∀ v ∈ [Value.marker .arrow], Element v :=
    List.forall_mem_singleton.2 (.marker (by decide) (by decide))
  refine .array ?_
  simp only [List.forall_mem_cons, List.not_mem_nil, false_implies, implies_true, and_true]
  refine ⟨.literal (.int _), .literal (.bool _), .literal .nil, .literal (.str writable),
    .literal (.sym (by decide)), .literal (.signature signature), .quote ?_⟩
  simp only [List.forall_mem_cons, List.not_mem_nil, false_implies, implies_true, and_true]
  exact ⟨.marker (by decide) (by decide), .ref (by decide) f, .quote arrow,
    .marker (by decide) (by decide), .op (by decide)⟩

theorem display_reads_back_various :
    Value.various.display =
      "[-3, true, nil, \"a\\n\\\"\", 'x-y, (a :Int, b -> :Str), \x7b [ f \x7b -> \x7d ] + \x7d]" ∧
    ∃ tokens m' v', tokenize Value.various.display = .ok tokens ∧
      ((Machine.new .standard).load tokens).Stops .done m' ∧
      m'.operands.toList = [v'] ∧ (v' == .various) = true :=
  ⟨by decide +kernel, display_reads_back Value.expressible_various⟩

end Catena
