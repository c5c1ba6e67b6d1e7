import Catena.Number.Read
import Catena.Token.Basic

set_option autoImplicit false

/-!
The grammar of tokens. A token has one of a few shapes, which are tried in order; the first that
matches at the front of the text wins. Words end only before a delimiter, so `1x` is a name and not
a number followed by a name.
-/

namespace Catena

/-- Separates tokens and means nothing else. -/
def isBlank (c : Char) : Bool :=
  c == ' ' || c == '\t' || c == '\r' || c == '\n' || c == ','

/-- Ends a word. -/
def isDelimiter (c : Char) : Bool :=
  isBlank c || c == '[' || c == ']' || c == '{' || c == '}' || c == '(' || c == ')' ||
    c == '"' || c == '\'' || c == ':' || c == '#'

def isWordChar (c : Char) : Bool := !isDelimiter c

/-- Whether no word goes on at the front of `rest`. -/
def atBoundary : List Char → Bool
  | [] => true
  | c :: _ => isDelimiter c

inductive Shape where
  | float
  | int
  | string
  | boolean
  | nil
  | arrow
  | opening (bracket : Bracket)
  | closing (bracket : Bracket)
  | symbol
  | typeName
  | definition
  | name
  deriving DecidableEq, Repr

namespace Shape

/-- All shapes, in the order in which they are tried. -/
def all : List Shape :=
  [.float, .int, .string, .boolean, .nil, .arrow, .opening .array, .closing .array,
   .opening .quote, .closing .quote, .opening .params, .closing .params,
   .symbol, .typeName, .definition, .name]

/-- What a failed scan calls the shape. -/
def label : Shape → String
  | .float => "float"
  | .int => "int"
  | .string => "string"
  | .boolean => "boolean"
  | .nil => "nil"
  | .arrow => "arrow"
  | .opening .array => "open_array"
  | .closing .array => "close_array"
  | .opening .quote => "open_quote"
  | .closing .quote => "close_quote"
  | .opening .params => "open_params"
  | .closing .params => "close_params"
  | .symbol => "symbol"
  | .typeName => "type_name"
  | .definition => "definition"
  | .name => "name"

/-- The longest run of characters in a class at the front, if it is not empty. -/
def run? (inClass : Char → Bool) (cs : List Char) : Option (List Char × List Char) :=
  if (cs.takeWhile inClass).isEmpty then none
  else some (cs.takeWhile inClass, cs.dropWhile inClass)

def digits? : List Char → Option (List Char × List Char) := run? Char.isDigit

def word? : List Char → Option (List Char × List Char) := run? isWordChar

/-- A fixed word at the front, ended by a delimiter. -/
def keyword? (word cs : List Char) : Option (List Char × List Char) :=
  if word.isPrefixOf cs && atBoundary (cs.drop word.length) then
    some (word, cs.drop word.length)
  else
    none

def one? (c : Char) : List Char → Option (List Char × List Char)
  | [] => none
  | d :: rest => if d = c then some ([c], rest) else none

/-- The text up to the closing quote, which is included. A backslash takes the next character with
it, so that a quote after it does not close the string. -/
def quoted? : List Char → Option (List Char × List Char)
  | [] => none
  | '"' :: rest => some (['"'], rest)
  | '\\' :: c :: rest => (quoted? rest).map fun (text, rest) => ('\\' :: c :: text, rest)
  | ['\\'] => none
  | c :: rest => (quoted? rest).map fun (text, rest) => (c :: text, rest)

def unsignedInt? (cs : List Char) : Option (List Char × List Char) :=
  match digits? cs with
  | some (digits, rest) => if atBoundary rest then some (digits, rest) else none
  | none => none

def unsignedFloat? (cs : List Char) : Option (List Char × List Char) :=
  match digits? cs with
  | some (whole, '.' :: rest) =>
    match digits? rest with
    | some (fraction, rest) =>
      if atBoundary rest then some (whole ++ '.' :: fraction, rest) else none
    | none => none
  | _ => none

def signed? (unsigned? : List Char → Option (List Char × List Char)) :
    List Char → Option (List Char × List Char)
  | '-' :: cs => (unsigned? cs).map fun (text, rest) => ('-' :: text, rest)
  | cs => unsigned? cs

/-- A fixed first character followed by what `rule?` matches. -/
def marked? (mark : Char) (rule? : List Char → Option (List Char × List Char)) :
    List Char → Option (List Char × List Char)
  | [] => none
  | c :: cs =>
    if c = mark then (rule? cs).map fun (text, rest) => (mark :: text, rest) else none

def definition? (cs : List Char) : Option (List Char × List Char) :=
  match word? cs with
  | some (word, ':' :: rest) => some (word ++ [':'], rest)
  | _ => none

/-- The text of this shape at the front of `cs`, and what follows it. -/
def matches? : Shape → List Char → Option (List Char × List Char)
  | .float => signed? unsignedFloat?
  | .int => signed? unsignedInt?
  | .string => marked? '"' quoted?
  | .boolean => fun cs => (keyword? "true".toList cs).orElse fun _ => keyword? "false".toList cs
  | .nil => keyword? "nil".toList
  | .arrow => keyword? "->".toList
  | .opening bracket => one? bracket.opening
  | .closing bracket => one? bracket.closing
  | .symbol => marked? '\'' word?
  | .typeName => marked? ':' word?
  | .definition => definition?
  | .name => word?

/-- The first shape that matches at the front of `cs`, with its text and what follows. -/
def first? (cs : List Char) : Option (Shape × List Char × List Char) :=
  all.findSome? fun shape => (shape.matches? cs).map fun found => (shape, found)

/-! Every shape reads a nonempty piece off the front of the text. -/

/-- What a rule reads is a nonempty front part of its input. -/
def Splits (rule? : List Char → Option (List Char × List Char)) : Prop :=
  ∀ cs text rest, rule? cs = some (text, rest) → cs = text ++ rest ∧ text ≠ []

theorem run?_splits (inClass : Char → Bool) : Splits (run? inClass) := by
  intro cs text rest h
  unfold run? at h
  split at h
  · cases h
  · next nonempty =>
    cases h
    exact ⟨List.takeWhile_append_dropWhile.symm, by simpa using nonempty⟩

theorem digits?_splits : Splits digits? := run?_splits _

theorem word?_splits : Splits word? := run?_splits _

theorem keyword?_splits {word : List Char} (nonempty : word ≠ []) : Splits (keyword? word) := by
  intro cs text rest h
  unfold keyword? at h
  split at h
  · next hp =>
    cases h
    have hp := (Bool.and_eq_true_iff.1 hp).1
    obtain ⟨tail, rfl⟩ := List.isPrefixOf_iff_prefix.1 hp
    simp [nonempty]
  · cases h

theorem one?_splits (c : Char) : Splits (one? c) := by
  intro cs text rest h
  unfold one? at h
  split at h
  · cases h
  · split at h
    · next hd => cases h; simp [hd]
    · cases h

theorem quoted?_splits : Splits quoted? := by
  intro cs
  fun_induction quoted? cs with
  | case1 => simp
  | case2 rest => rintro text r ⟨⟩; simp
  | case3 c rest ih =>
    intro text r h
    obtain ⟨⟨t, r'⟩, ht, he⟩ := Option.map_eq_some_iff.1 h
    cases he
    simp [(ih _ _ ht).1]
  | case4 => simp
  | case5 c rest _ _ _ ih =>
    intro text r h
    obtain ⟨⟨t, r'⟩, ht, he⟩ := Option.map_eq_some_iff.1 h
    cases he
    simp [(ih _ _ ht).1]

theorem unsignedInt?_splits : Splits unsignedInt? := by
  intro cs text rest h
  unfold unsignedInt? at h
  split at h
  · next digits more hd =>
    split at h
    · cases h; exact digits?_splits _ _ _ hd
    · cases h
  · cases h

theorem unsignedFloat?_splits : Splits unsignedFloat? := by
  intro cs text rest h
  unfold unsignedFloat? at h
  split at h
  · next whole more hw =>
    split at h
    · next fraction end? hf =>
      split at h
      · cases h
        have hw := digits?_splits _ _ _ hw
        have hf := digits?_splits _ _ _ hf
        simp [hw.1, hf.1]
      · cases h
    · cases h
  · cases h

theorem signed?_splits {unsigned? : List Char → Option (List Char × List Char)}
    (splits : Splits unsigned?) : Splits (signed? unsigned?) := by
  intro cs text rest h
  unfold signed? at h
  split at h
  · obtain ⟨⟨t, r⟩, ht, he⟩ := Option.map_eq_some_iff.1 h
    cases he
    simp [(splits _ _ _ ht).1]
  · exact splits _ _ _ h

theorem marked?_splits {rule? : List Char → Option (List Char × List Char)} (mark : Char)
    (splits : Splits rule?) : Splits (marked? mark rule?) := by
  intro cs text rest h
  unfold marked? at h
  split at h
  · cases h
  · split at h
    · next hc =>
      obtain ⟨⟨t, r⟩, ht, he⟩ := Option.map_eq_some_iff.1 h
      cases he
      simp [hc, (splits _ _ _ ht).1]
    · cases h

theorem definition?_splits : Splits definition? := by
  intro cs text rest h
  unfold definition? at h
  split at h
  · next word more hw =>
    cases h
    simp [(word?_splits _ _ _ hw).1]
  · cases h

theorem matches?_splits (shape : Shape) : Splits shape.matches? := by
  cases shape with
  | float => exact signed?_splits unsignedFloat?_splits
  | int => exact signed?_splits unsignedInt?_splits
  | string => exact marked?_splits _ quoted?_splits
  | boolean =>
    intro cs text rest h
    simp only [matches?] at h
    cases ht : keyword? "true".toList cs with
    | none =>
      rw [ht] at h
      exact keyword?_splits (by decide) _ _ _ h
    | some found =>
      rw [ht] at h
      cases h
      exact keyword?_splits (by decide) _ _ _ ht
  | nil => exact keyword?_splits (by decide)
  | arrow => exact keyword?_splits (by decide)
  | opening bracket => exact one?_splits _
  | closing bracket => exact one?_splits _
  | symbol => exact marked?_splits _ word?_splits
  | typeName => exact marked?_splits _ word?_splits
  | definition => exact definition?_splits
  | name => exact word?_splits

theorem first?_splits {cs text rest : List Char} {shape : Shape}
    (h : first? cs = some (shape, text, rest)) : cs = text ++ rest ∧ text ≠ [] := by
  obtain ⟨tried, _, h⟩ := List.exists_of_findSome?_eq_some h
  obtain ⟨found, hm, he⟩ := Option.map_eq_some_iff.1 h
  cases he
  exact matches?_splits _ _ _ _ hm

end Shape

end Catena
