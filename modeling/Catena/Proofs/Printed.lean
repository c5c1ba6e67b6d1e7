import Catena.Registry
import Catena.Value.ParameterList
import Catena.Proofs.Spelling

set_option autoImplicit false

/-!
Values that can be written in a program, and the words that they are written with. The text that
such a value is shown as spells its words.
-/

namespace Catena

/-! ### The words of a value -/

def Param.lexemes (p : Param) : List Lexeme :=
  .name p.name :: (p.type.map Lexeme.type).toList

/-- What stands between the parentheses. -/
def Signature.lexemes (s : Signature) : List Lexeme :=
  s.params.flatMap Param.lexemes ++
    match s.returns with
    | some types => .arrow :: types.map .type
    | none => []

def Marker.lexeme : Marker → Lexeme
  | .arrayOpen => .opening .array
  | .arrayClose => .closing .array
  | .quoteOpen => .opening .quote
  | .paramsOpen => .opening .params
  | .arrow => .arrow

namespace Value

mutual

/-- Values that cannot be written have no words. -/
def lexemes : Value → List Lexeme
  | .int n => [.int n]
  | .float x => [.float x]
  | .bool b => [.bool b]
  | .str text => [.str text]
  | .sym name => [.sym name]
  | .nil => [.nil]
  | .array _ items => .opening .array :: (lexemesAll items ++ [.closing .array])
  | .quote _ code => .opening .quote :: (lexemesAll code ++ [.closing .quote])
  | .op o _ => [.name o.name]
  | .signature s => .opening .params :: (s.lexemes ++ [.closing .params])
  | .marker m => [m.lexeme]
  | .ref name _ => [.name name]
  | .closure _ | .error _ => []

def lexemesAll : List Value → List Lexeme
  | [] => []
  | v :: rest => lexemes v ++ lexemesAll rest

end

theorem lexemesAll_eq_flatMap (items : List Value) : lexemesAll items = items.flatMap lexemes := by
  induction items with
  | nil => rfl
  | cons v rest ih => rw [lexemesAll, ih, List.flatMap_cons]

theorem toList_displayItems (separator : String) (items : List Value) :
    (displayItems separator items).toList =
      separator.toList.intercalate (items.map fun v => v.display.toList) := by
  induction items with
  | nil => rfl
  | cons v rest ih =>
    cases rest with
    | nil => simp [displayItems, List.intercalate]
    | cons w rest =>
      rw [displayItems, String.toList_append, String.toList_append, ih]
      · simp [List.intercalate]
      · exact List.cons_ne_nil _ _

end Value

/-! ### Values that can be written -/

structure Signature.Expressible (s : Signature) : Prop where
  names : ∀ p ∈ s.params, IsName p.name
  types : ∀ p ∈ s.params, ∀ type, p.type = some type → IsWord type.toList
  returns : ∀ types, s.returns = some types → ∀ type ∈ types, IsWord type.toList

/-- Values that are written in the same way everywhere. -/
inductive Literal : Value → Prop
  | int (n) : Literal (.int n)
  | bool (b) : Literal (.bool b)
  | nil : Literal .nil
  | str {text} : (∀ c ∈ text.toList, Writable c) → Literal (.str text)
  | sym {name} : IsWord name.toList → Literal (.sym name)
  | signature {s} : s.Expressible → Literal (.signature s)

/-- What can be written in a quotation. Arrays are made when it runs, and until then there are their
brackets. -/
inductive Element : Value → Prop
  | literal {v} : Literal v → Element v
  | ref {name origin} : Registry.standard.get? name = none → IsName name →
      Element (.ref name origin)
  | op {b origin} : (Registry.standard.get? b.name).isSome = true →
      Element (.op (.builtin b) origin)
  | marker {m} : m ≠ .quoteOpen → m ≠ .paramsOpen → Element (.marker m)
  | quote {id code} : (∀ v ∈ code, Element v) → Element (.quote id code)

/-- What can be written in a program so that the program pushes it. -/
inductive Expressible : Value → Prop
  | literal {v} : Literal v → Expressible v
  | quote {id code} : (∀ v ∈ code, Element v) → Expressible (.quote id code)
  | array {id items} : (∀ v ∈ items, Expressible v) → Expressible (.array id items)

/-! ### Operators -/

theorem Primitive.first?_name : ∀ p ∈ Primitive.all,
    Shape.first? p.name.toList = some (.name, p.name.toList, []) := by
  decide +kernel

theorem Registry.get?_foldl {primitives : List Primitive} {r : Registry} {name : String}
    {b : Builtin Value}
    (found : (primitives.foldl (fun r p => r.register p.name (.primitive p)) r).get? name =
      some b) :
    (∃ p ∈ primitives, p.name = name ∧ b.name = name) ∨ r.get? name = some b := by
  induction primitives generalizing r with
  | nil => exact .inr found
  | cons p primitives ih =>
    rcases ih found with ⟨q, member, same⟩ | before
    · exact .inl ⟨q, List.mem_cons_of_mem p member, same⟩
    · change (Bindings.insert r p.name ⟨p.name, .primitive p⟩).get? name = some b at before
      rw [Bindings.get?_insert] at before
      split at before
      · next same =>
        cases before
        exact .inl ⟨p, List.mem_cons_self, same, same⟩
      · exact .inr before

/-- A builtin is found by its name, which is the name of an operator. -/
theorem Registry.get?_standard {name : String} {b : Builtin Value}
    (found : Registry.standard.get? name = some b) :
    b.name = name ∧ Shape.first? name.toList = some (.name, name.toList, []) := by
  rcases Registry.get?_foldl found with ⟨p, member, rfl, same⟩ | none
  · exact ⟨same, Primitive.first?_name p member⟩
  · cases none

/-! ### What values are shown as -/

theorem endsWord_of_isBlank {c : Char} (blank : isBlank c = true) (rest : List Char) :
    EndsWord (c :: rest) := by
  refine endsWord_cons rest ?_ ?_
  · simp [isDelimiter, blank]
  · rintro rfl
    cases blank

/-- Texts with blanks between them. -/
theorem Spells.intercalate {α : Type} {text : α → List Char} {words : α → List Lexeme} {c : Char}
    {separator : List Char} (blank : (c :: separator).all isBlank = true) {items : List α}
    (each : ∀ a ∈ items, ∀ rest, EndsWord rest → Spells (text a ++ rest) (words a) rest)
    {rest : List Char} (ends : EndsWord rest) :
    Spells ((c :: separator).intercalate (items.map text) ++ rest) (items.flatMap words) rest := by
  induction items with
  | nil => exact .nil
  | cons a items ih =>
    obtain ⟨first, others⟩ := List.forall_mem_cons.1 each
    cases items with
    | nil => simpa [List.intercalate] using first rest ends
    | cons b items =>
      have split : (c :: separator).intercalate ((a :: b :: items).map text) ++ rest =
          text a ++ ((c :: separator) ++
            ((c :: separator).intercalate ((b :: items).map text) ++ rest)) := by
        simp [List.intercalate]
      rw [split, List.flatMap_cons]
      have blankFirst : isBlank c = true := (Bool.and_eq_true_iff.1 blank).1
      exact (first _ (endsWord_of_isBlank blankFirst _)).append ((ih others).blanks blank)

theorem spells_type {type : String} (word : IsWord type.toList) {rest : List Char}
    (ends : EndsWord rest) : Spells (':' :: (type.toList ++ rest)) [.type type] rest :=
  .single (Shape.first?_typeName word ends) (by simp [Piece.lexeme?])

theorem Param.spells {p : Param} (name : IsName p.name)
    (type : ∀ type, p.type = some type → IsWord type.toList) {rest : List Char}
    (ends : EndsWord rest) : Spells (p.display.toList ++ rest) p.lexemes rest := by
  obtain ⟨text, none | shown⟩ := p
  · exact name.spells ends
  · have split : (Param.display ⟨text, some shown⟩).toList ++ rest =
        text.toList ++ ' ' :: ':' :: (shown.toList ++ rest) := by
      change (text ++ " :" ++ shown).toList ++ rest = _
      simp
    rw [split]
    exact (name.spells (endsWord_of_isBlank rfl _)).append
      (.blank rfl (spells_type (type shown rfl) ends))

/-- The types of the results, each after a blank. -/
theorem spells_types {types : List String} (words : ∀ type ∈ types, IsWord type.toList)
    {rest : List Char} (ends : EndsWord rest) :
    EndsWord (types.flatMap (fun type => ' ' :: ':' :: type.toList) ++ rest) ∧
      Spells (types.flatMap (fun type => ' ' :: ':' :: type.toList) ++ rest)
        (types.map .type) rest := by
  induction types with
  | nil => exact ⟨ends, .nil⟩
  | cons type types ih =>
    obtain ⟨word, words⟩ := List.forall_mem_cons.1 words
    obtain ⟨ends, others⟩ := ih words
    rw [List.flatMap_cons, List.append_assoc]
    exact ⟨endsWord_of_isBlank rfl _, .blank rfl ((spells_type word ends).append others)⟩

theorem Signature.Expressible.spells {s : Signature} (expressible : s.Expressible)
    (rest : List Char) :
    Spells (s.display.toList ++ rest) (Value.signature s).lexemes rest := by
  obtain ⟨params, returns⟩ := s
  have closed : Spells (')' :: rest) [.closing .params] rest :=
    .single (Shape.first?_closing .params rest) rfl
  have opened {cs : List Char} {lexemes : List Lexeme} (spells : Spells cs lexemes rest) :
      Spells ('(' :: cs) (.opening .params :: lexemes) rest :=
    .piece (Shape.first?_opening .params cs) rfl spells
  have names {rest : List Char} (ends : EndsWord rest) :
      Spells ([',', ' '].intercalate (params.map fun p => p.display.toList) ++ rest)
        (params.flatMap Param.lexemes) rest :=
    .intercalate (by decide) (fun p member _ => Param.spells (expressible.names p member)
      (expressible.types p member)) ends
  have ends : EndsWord (')' :: rest) := endsWord_cons rest rfl (by decide)
  have shown : (", ".intercalate (params.map Param.display)).toList =
      [',', ' '].intercalate (params.map fun p => p.display.toList) := by
    rw [String.toList_intercalate, List.map_map]
    rfl
  cases returns with
  | none =>
    have split : (Signature.display ⟨params, none⟩).toList ++ rest =
        '(' :: ([',', ' '].intercalate (params.map fun p => p.display.toList) ++ ')' :: rest) := by
      simp [Signature.display, shown]
    rw [split, Value.lexemes, Signature.lexemes, List.append_nil]
    exact opened ((names ends).append closed)
  | some types =>
    obtain ⟨after, results⟩ := spells_types (expressible.returns types rfl) ends
    have split : (Signature.display ⟨params, some types⟩).toList ++ rest =
        '(' :: ([',', ' '].intercalate (params.map fun p => p.display.toList) ++
          ' ' :: ("->".toList ++ (types.flatMap (fun type => ' ' :: ':' :: type.toList) ++
            ')' :: rest))) := by
      have text : (String.join (types.map fun type => s!" :{type}")).toList =
          types.flatMap fun type => ' ' :: ':' :: type.toList := by
        rw [String.toList_join, List.flatMap_map]
        congr 1
        funext type
        change (" :" ++ type).toList = _
        simp
      simp only [Signature.display, String.toList_append, shown, text]
      simp
    have arrow := Spells.word (w := "->".toList) .arrow (by decide) (by decide) rfl after
    rw [split, Value.lexemes, Signature.lexemes, List.append_assoc]
    exact opened ((names (endsWord_of_isBlank rfl _)).append
      (.blank rfl (arrow.append (results.append closed))))

theorem Literal.spells {v : Value} (literal : Literal v) {rest : List Char} (ends : EndsWord rest) :
    Spells (v.display.toList ++ rest) v.lexemes rest := by
  cases literal with
  | int n =>
    have read := congrArg (Option.map Lexeme.int) (Number.word?_toString n)
    exact .word .int (isWord_toString_int _) (Shape.first?_toString_int _) read ends
  | bool b =>
    cases b with
    | true => exact .word (w := "true".toList) .boolean (by decide) (by decide) rfl ends
    | false => exact .word (w := "false".toList) .boolean (by decide) (by decide) rfl ends
  | nil => exact .word (w := "nil".toList) .nil (by decide) (by decide) rfl ends
  | str writable => exact spells_quoted writable rest
  | @sym name word =>
    have split : (Value.sym name).display.toList ++ rest = '\'' :: (name.toList ++ rest) := by
      simp [Value.display]
    rw [split]
    exact .single (Shape.first?_symbol word ends) (by simp [Piece.lexeme?])
  | signature expressible => exact expressible.spells rest

/-- The text and the words of a value, in a context that does not continue them. -/
def Value.Shows (v : Value) : Prop :=
  ∀ rest, EndsWord rest → Spells (v.display.toList ++ rest) v.lexemes rest

theorem spells_items {items : List Value} (each : ∀ v ∈ items, v.Shows) (c : Char)
    (separator : List Char) (blank : (c :: separator).all isBlank = true) {rest : List Char}
    (ends : EndsWord rest) :
    Spells ((c :: separator).intercalate (items.map fun v => v.display.toList) ++ rest)
      (Value.lexemesAll items) rest := by
  rw [Value.lexemesAll_eq_flatMap]
  exact .intercalate blank each ends

theorem shows_quote {id : Nat} {code : List Value} (each : ∀ v ∈ code, v.Shows) :
    (Value.quote id code).Shows := by
  intro rest _
  have split : (Value.quote id code).display.toList ++ rest =
      '\x7b' :: ' ' :: ([' '].intercalate (code.map fun v => v.display.toList) ++
        ' ' :: '\x7d' :: rest) := by
    simp [Value.display, Value.toList_displayItems]
  have closed : Spells ('\x7d' :: rest) [.closing .quote] rest :=
    .single (Shape.first?_closing .quote rest) rfl
  have items := spells_items each ' ' [] (by decide)
    (endsWord_of_isBlank (c := ' ') rfl ('\x7d' :: rest))
  rw [split, Value.lexemes]
  exact .piece (Shape.first?_opening .quote _) rfl (.blank rfl (items.append (.blank rfl closed)))

theorem shows_array {id : Nat} {items : List Value} (each : ∀ v ∈ items, v.Shows) :
    (Value.array id items).Shows := by
  intro rest _
  have split : (Value.array id items).display.toList ++ rest =
      '[' :: ([',', ' '].intercalate (items.map fun v => v.display.toList) ++ ']' :: rest) := by
    simp [Value.display, Value.toList_displayItems]
  have closed : Spells (']' :: rest) [.closing .array] rest :=
    .single (Shape.first?_closing .array rest) rfl
  have items := spells_items each ',' [' '] (by decide)
    (endsWord_cons (c := ']') rest rfl (by decide))
  rw [split, Value.lexemes]
  exact .piece (Shape.first?_opening .array _) rfl (items.append closed)

theorem Element.shows {v : Value} (element : Element v) : v.Shows := by
  induction element with
  | literal literal => exact fun _ => literal.spells
  | ref _ name => exact fun _ => name.spells
  | @op b _ known =>
    obtain ⟨_, found⟩ := Option.isSome_iff_exists.1 known
    obtain ⟨_, first⟩ := Registry.get?_standard found
    exact fun _ => .word .name (isWord_of_first? first) first (by simp [Piece.lexeme?]; rfl)
  | @marker m quote params =>
    intro rest ends
    cases m with
    | arrayOpen => exact .single (Shape.first?_opening .array rest) rfl
    | arrayClose => exact .single (Shape.first?_closing .array rest) rfl
    | arrow => exact .word (w := "->".toList) .arrow (by decide) (by decide) rfl ends
    | quoteOpen => contradiction
    | paramsOpen => contradiction
  | quote _ ih => exact shows_quote ih

theorem Expressible.shows {v : Value} (expressible : Expressible v) : v.Shows := by
  induction expressible with
  | literal literal => exact fun _ => literal.spells
  | quote elements => exact shows_quote fun v member => (elements v member).shows
  | array _ ih => exact shows_array ih

end Catena
