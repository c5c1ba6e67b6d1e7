import Catena.Proofs.Spelling
import Mathlib.Data.List.Induction

set_option autoImplicit false

/-!
The longest word wins. The shapes of tokens are tried in order, each with a rule of its own for
where it ends. Yet a text has the tokens that a much simpler reader finds in it, one that decides by
a single character, takes the longest run from there on and asks last what the run says. Such a
reader comes to a halt only at a string that is not closed and at a mark without a word.
-/

namespace Catena

/-! ### Places -/

/-- The place right after a text that starts a source: its lines are counted, and the characters of
its last line. -/
def Origin.ending (text : List Char) : Origin :=
  ⟨text.count '\n' + 1, (text.reverse.takeWhile (· != '\n')).length + 1⟩

theorem Origin.after_start (text : List Char) : Origin.start.after text = Origin.ending text := by
  induction text using List.reverseRecOn with
  | nil => rfl
  | append_singleton text c ih =>
    rw [Origin.after_append, ih, Origin.after_cons, Origin.after_nil, Origin.next]
    by_cases newline : c = '\n'
    · subst newline
      simp [Origin.ending, List.count_append]
    · simp [Origin.ending, List.count_append, newline]

namespace Munch

/-! ### The reader -/

/-- What stands at a place: an integer of any size, or something else. -/
inductive Reading where
  | integer (numeral : List Char)
  | word (lexeme : Lexeme)

/-- Why nothing can be read at a place. -/
inductive Flaw where
  /-- A string without a closing quote. -/
  | unterminated
  /-- A mark without a word after it. -/
  | bareMark

def isDigits (cs : List Char) : Bool := !cs.isEmpty && cs.all Char.isDigit

/-- A word without its minus sign. -/
def unsigned : List Char → List Char
  | '-' :: cs => cs
  | cs => cs

/-- Digits after an optional minus sign. -/
def isInteger (r : List Char) : Bool := isDigits (unsigned r)

def isPointed (cs : List Char) : Bool :=
  isDigits (cs.takeWhile (· != '.')) && isDigits ((cs.dropWhile (· != '.')).drop 1)

/-- Digits on both sides of a point, after an optional minus sign. -/
def isDecimal (r : List Char) : Bool := isPointed (unsigned r)

/-- The words that are no names, numbers apart. -/
def keywords : List (List Char × Lexeme) :=
  [("true".toList, .bool true), ("false".toList, .bool false), ("nil".toList, .nil),
   ("->".toList, .arrow)]

/-- What a word says that is no name. -/
def literal? (r : List Char) : Option Reading :=
  if isInteger r then some (.integer r)
  else if isDecimal r then some (.word (.float (Number.double r)))
  else (keywords.lookup r).map .word

/-- What a longest run `r` says, and what is left: a colon after a name belongs to it. -/
def ofRun (r left : List Char) : Reading × List Char :=
  match literal? r with
  | some reading => (reading, left)
  | none =>
    match left with
    | ':' :: left => (.word (.define (String.ofList r)), left)
    | left => (.word (.name (String.ofList r)), left)

def bracket? (c : Char) : Option Lexeme :=
  [Bracket.array, .quote, .params].findSome? fun bracket =>
    if c = bracket.opening then some (.opening bracket)
    else if c = bracket.closing then some (.closing bracket)
    else none

/-- The text up to the first quote that no backslash escapes, and what is left after it. -/
def untilQuote : (escaped : Bool) → List Char → Option (List Char × List Char)
  | _, [] => none
  | true, c :: rest => (untilQuote false rest).map fun found => (c :: found.1, found.2)
  | false, c :: rest =>
    if c = '"' then some ([], rest)
    else (untilQuote (c == '\\') rest).map fun found => (c :: found.1, found.2)

/-- Reads a string whose opening quote has been read. -/
def ofString (rest : List Char) : Except Flaw (Reading × List Char) :=
  match untilQuote false rest with
  | some (text, left) => .ok (.word (.str (String.ofList (unescape text))), left)
  | none => .error .unterminated

/-- Reads the longest word after a mark. -/
def ofMark (make : String → Lexeme) (rest : List Char) : Except Flaw (Reading × List Char) :=
  if (rest.takeWhile isWordChar).isEmpty then .error .bareMark
  else .ok (.word (make (String.ofList (rest.takeWhile isWordChar))), rest.dropWhile isWordChar)

/-- Reads what starts with `c`. -/
def munch (c : Char) (rest : List Char) : Except Flaw (Reading × List Char) :=
  if c = '"' then ofString rest
  else if c = '\'' then ofMark .sym rest
  else if c = ':' then ofMark .type rest
  else
    match bracket? c with
    | some lexeme => .ok (.word lexeme, rest)
    | none => .ok (ofRun (c :: rest.takeWhile isWordChar) (rest.dropWhile isWordChar))

/-- What is left after blanks and comments. -/
def skip (cs : List Char) : List Char :=
  match _blanks : cs.dropWhile isBlank with
  | '#' :: rest => skip (rest.dropWhile (· != '\n'))
  | other => other
termination_by cs.length
decreasing_by
  have shorter := (List.dropWhile_sublist isBlank (l := cs)).length_le
  have line := (List.dropWhile_sublist (· != '\n') (l := rest)).length_le
  rw [_blanks, List.length_cons] at shorter
  omega

theorem length_skip_le (cs : List Char) : (skip cs).length ≤ cs.length := by
  fun_induction skip cs with
  | case1 cs rest blanks ih =>
    have shorter := (List.dropWhile_sublist isBlank (l := cs)).length_le
    have line := (List.dropWhile_sublist (· != '\n') (l := rest)).length_le
    rw [blanks, List.length_cons] at shorter
    omega
  | case2 cs => exact (List.dropWhile_sublist isBlank).length_le

theorem untilQuote_splits {escaped : Bool} {cs text left : List Char}
    (found : untilQuote escaped cs = some (text, left)) : cs = text ++ '"' :: left := by
  fun_induction untilQuote escaped cs generalizing text with
  | case1 => cases found
  | case2 c rest ih =>
    obtain ⟨⟨more, _⟩, after, same⟩ := Option.map_eq_some_iff.1 found
    cases same
    rw [ih after, List.cons_append]
  | case3 rest =>
    cases found
    rfl
  | case4 c rest _ ih =>
    obtain ⟨⟨more, _⟩, after, same⟩ := Option.map_eq_some_iff.1 found
    cases same
    rw [ih after, List.cons_append]

theorem length_ofRun_le (r left : List Char) : (ofRun r left).2.length ≤ left.length := by
  unfold ofRun
  split
  · exact Nat.le_refl _
  · split
    · exact Nat.le_succ _
    · exact Nat.le_refl _

theorem length_of_ofMark {make : String → Lexeme} {rest left : List Char} {reading : Reading}
    (read : ofMark make rest = .ok (reading, left)) : left.length ≤ rest.length := by
  unfold ofMark at read
  split at read
  · cases read
  · cases read
    exact (List.dropWhile_sublist isWordChar).length_le

/-- Reading leaves less than there was. -/
theorem length_of_munch {c : Char} {rest left : List Char} {reading : Reading}
    (read : munch c rest = .ok (reading, left)) : left.length ≤ rest.length := by
  unfold munch at read
  split at read
  · unfold ofString at read
    split at read
    · next found =>
      cases read
      rw [untilQuote_splits found, List.length_append, List.length_cons]
      omega
    · cases read
  · split at read
    · exact length_of_ofMark read
    · split at read
      · exact length_of_ofMark read
      · split at read
        · cases read
          exact Nat.le_refl _
        · have shorter :=
            length_ofRun_le (c :: rest.takeWhile isWordChar) (rest.dropWhile isWordChar)
          rw [Except.ok.inj read] at shorter
          exact Nat.le_trans shorter (List.dropWhile_sublist isWordChar).length_le

/-- The place in the text `whole` from which on `rest` is left. -/
def placeOf (whole rest : List Char) : Origin :=
  Origin.ending (whole.take (whole.length - rest.length))

/-- Reads one thing after another from `cs`, which ends the text `whole`; an error is the place
where nothing can be read. -/
def scan (whole cs : List Char) : Except Origin (List (Reading × Origin)) :=
  match _skipped : skip cs with
  | [] => .ok []
  | c :: rest =>
    match _read : munch c rest with
    | .error _ => .error (placeOf whole (c :: rest))
    | .ok (reading, left) => (scan whole left).map ((reading, placeOf whole (c :: rest)) :: ·)
termination_by cs.length
decreasing_by
  have skipped := length_skip_le cs
  have shorter := length_of_munch _read
  rw [_skipped, List.length_cons] at skipped
  omega

def Reading.lexeme : Reading → Lexeme
  | .integer numeral => .int (Int64.ofInt (Number.ofNumeral numeral))
  | .word lexeme => lexeme

/-- An integer that does not fit a word is an error. -/
def tooLarge? : Reading × Origin → Option ScanError
  | (.integer numeral, origin) =>
    if Number.FitsWord (Number.ofNumeral numeral) then none
    else some (.number (String.ofList numeral) origin)
  | (.word _, _) => none

/-- What the reader makes of a source. Integers are looked at when all of it has been read. -/
def tokens (source : String) : Except ScanError (List Token) :=
  match scan source.toList source.toList with
  | .error place => .error (.malformed source place)
  | .ok found =>
    match found.findSome? tooLarge? with
    | some e => .error e
    | none => .ok (found.map fun (reading, origin) => ⟨reading.lexeme, origin⟩)

/-! ### Blanks and comments -/

theorem skip_nil : skip [] = [] := by
  rw [skip]
  rfl

theorem skip_of_isBlank {c : Char} (blank : isBlank c = true) (cs : List Char) :
    skip (c :: cs) = skip cs := by
  rw [skip, skip, List.dropWhile_cons_of_pos blank]

theorem skip_comment (cs : List Char) : skip ('#' :: cs) = skip (cs.dropWhile (· != '\n')) := by
  rw [skip]
  rfl

/-- Nothing is skipped before a token. -/
theorem skip_of_visible {c : Char} (visible : isBlank c = false) (other : c ≠ '#')
    (cs : List Char) : skip (c :: cs) = c :: cs := by
  rw [skip, List.dropWhile_cons_of_neg (by simp [visible])]
  split
  · next same => cases same; contradiction
  · rfl

/-- A comment that is being read ends with its line. -/
theorem gap_snd (cs : List Char) :
    (gap false cs).2 = skip cs ∧ (gap true cs).2 = skip (cs.dropWhile (· != '\n')) := by
  induction cs with
  | nil => exact ⟨skip_nil.symm, skip_nil.symm⟩
  | cons c cs ih =>
    obtain ⟨outside, inside⟩ := ih
    constructor
    · by_cases blank : isBlank c = true
      · have other : (c == '#') = false := by
          refine beq_false_of_ne ?_
          rintro rfl
          cases blank
        simp [gap, blank, other, skip_of_isBlank blank, outside]
      · by_cases comment : c = '#'
        · subst comment
          simp [gap, skip_comment, inside]
        · simp [gap, blank, comment, skip_of_visible (Bool.not_eq_true _ ▸ blank) comment]
    · by_cases newline : c = '\n'
      · subst newline
        simp [gap, skip_of_isBlank (show isBlank '\n' = true from rfl), outside]
      · have inComment : (c != '\n') = true := bne_iff_ne.2 newline
        simp [gap, inComment, inside]

/-! ### Strings -/

theorem quoted?_eq (cs : List Char) :
    Shape.quoted? cs =
      (untilQuote false cs).map fun found => (found.1 ++ ['"'], found.2) := by
  fun_induction Shape.quoted? cs with
  | case1 => rfl
  | case2 rest => rfl
  | case3 c rest ih =>
    rw [ih]
    simp [untilQuote, Function.comp_def]
  | case4 => rfl
  | case5 c rest quote escape last ih =>
    have backslash : c ≠ '\\' := by
      intro same
      cases rest with
      | nil => exact last same rfl
      | cons d rest => exact escape d rest same rfl
    rw [ih, untilQuote, if_neg quote, beq_false_of_ne backslash]
    simp [Function.comp_def]

/-! ### Numerals and other words -/

theorem isDigits_iff {cs : List Char} :
    isDigits cs = true ↔ cs ≠ [] ∧ ∀ c ∈ cs, c.isDigit = true := by
  simp [isDigits]

theorem isPointed_iff {cs : List Char} :
    isPointed cs = true ↔
      ∃ whole fraction, cs = whole ++ '.' :: fraction ∧ isDigits whole = true ∧
        isDigits fraction = true := by
  constructor
  · intro pointed
    obtain ⟨whole, fraction⟩ := Bool.and_eq_true_iff.1 pointed
    refine ⟨_, _, ?_, whole, fraction⟩
    have parts : cs.takeWhile (· != '.') ++ cs.dropWhile (· != '.') = cs :=
      List.takeWhile_append_dropWhile
    have stop := List.head?_dropWhile_not (· != '.') cs
    cases tail : cs.dropWhile (· != '.') with
    | nil =>
      rw [tail] at fraction
      cases fraction
    | cons c fraction =>
      rw [tail] at parts stop
      obtain rfl : c = '.' := by simpa using stop
      exact parts.symm
  · rintro ⟨whole, fraction, rfl, digits, digits'⟩
    have other : ∀ c ∈ whole, (c != '.') = true := by
      intro c member
      rw [bne_iff_ne]
      rintro rfl
      cases (isDigits_iff.1 digits).2 _ member
    rw [isPointed, List.takeWhile_append_of_pos other, List.dropWhile_append_of_pos other]
    simp [digits, digits']

theorem takeWhile_append {p : Char → Bool} {cs rest : List Char} (all : ∀ c ∈ cs, p c = true)
    (stop : ∀ c ∈ rest.head?, p c = false) :
    (cs ++ rest).takeWhile p = cs ∧ (cs ++ rest).dropWhile p = rest := by
  have taken : rest.takeWhile p = [] ∧ rest.dropWhile p = rest := by
    cases rest with
    | nil => exact ⟨rfl, rfl⟩
    | cons c rest =>
      have other : ¬ p c = true := by simp [stop c rfl]
      exact ⟨List.takeWhile_cons_of_neg other, List.dropWhile_cons_of_neg other⟩
  rw [List.takeWhile_append_of_pos all, List.dropWhile_append_of_pos all, taken.1, taken.2,
    List.append_nil]
  exact ⟨rfl, rfl⟩

theorem run?_append {p : Char → Bool} {cs rest : List Char} (nonempty : cs ≠ [])
    (all : ∀ c ∈ cs, p c = true) (stop : ∀ c ∈ rest.head?, p c = false) :
    Shape.run? p (cs ++ rest) = some (cs, rest) := by
  obtain ⟨taken, left⟩ := takeWhile_append all stop
  rw [Shape.run?, taken, left, if_neg (by simpa using nonempty)]

theorem all_of_run? {p : Char → Bool} {cs text rest : List Char}
    (found : Shape.run? p cs = some (text, rest)) : ∀ c ∈ text, p c = true := by
  unfold Shape.run? at found
  split at found
  · cases found
  · cases found
    exact List.all_eq_true.1 List.all_takeWhile

section

variable {r left : List Char}

/-- A word has no end within itself. -/
theorem eq_nil_of_atBoundary (chars : ∀ c ∈ r, isWordChar c = true) (ends : atBoundary r = true) :
    r = [] := by
  cases r with
  | nil => rfl
  | cons c r => cases isWordChar_iff.1 (chars c List.mem_cons_self) (isDelimiter_iff.1 ends)

theorem unsignedInt?_eq (chars : ∀ c ∈ r, isWordChar c = true) :
    Shape.unsignedInt? r = if isDigits r then some (r, []) else none := by
  split
  · next digits =>
    obtain ⟨nonempty, all⟩ := isDigits_iff.1 digits
    have whole : Shape.digits? r = some (r, []) := Shape.run?_of_all nonempty all
    rw [Shape.unsignedInt?, whole]
    rfl
  · next other =>
    cases found : Shape.unsignedInt? r with
    | none => rfl
    | some pair =>
      obtain ⟨text, rest⟩ := pair
      unfold Shape.unsignedInt? at found
      split at found
      · next digits more ran =>
        split at found
        · next ends =>
          obtain ⟨rfl, nonempty⟩ := Shape.digits?_splits _ _ _ ran
          have none := eq_nil_of_atBoundary (List.forall_mem_append.1 chars).2 ends
          refine absurd ?_ other
          rw [none, List.append_nil]
          exact isDigits_iff.2 ⟨nonempty, all_of_run? ran⟩
        · cases found
      · cases found

theorem unsignedFloat?_eq (chars : ∀ c ∈ r, isWordChar c = true) :
    Shape.unsignedFloat? r = if isPointed r then some (r, []) else none := by
  split
  · next pointed =>
    obtain ⟨whole, fraction, rfl, digits, digits'⟩ := isPointed_iff.1 pointed
    obtain ⟨nonempty, all⟩ := isDigits_iff.1 digits
    obtain ⟨nonempty', all'⟩ := isDigits_iff.1 digits'
    have first : Shape.digits? (whole ++ '.' :: fraction) = some (whole, '.' :: fraction) := by
      refine run?_append nonempty all ?_
      rintro _ ⟨⟩
      rfl
    have second : Shape.digits? fraction = some (fraction, []) := Shape.run?_of_all nonempty' all'
    simp only [Shape.unsignedFloat?, first, second]
    rfl
  · next other =>
    cases found : Shape.unsignedFloat? r with
    | none => rfl
    | some pair =>
      obtain ⟨text, rest⟩ := pair
      unfold Shape.unsignedFloat? at found
      split at found
      · next whole more ran =>
        split at found
        · next fraction rest' ran' =>
          split at found
          · next ends =>
            obtain ⟨rfl, nonempty⟩ := Shape.digits?_splits _ _ _ ran
            obtain ⟨rfl, nonempty'⟩ := Shape.digits?_splits _ _ _ ran'
            have none : rest' = [] := by
              refine eq_nil_of_atBoundary (fun c member => chars c ?_) ends
              simp [member]
            refine absurd (isPointed_iff.2 ⟨whole, fraction, ?_, ?_, ?_⟩) other
            · rw [none, List.append_nil]
            · exact isDigits_iff.2 ⟨nonempty, all_of_run? ran⟩
            · exact isDigits_iff.2 ⟨nonempty', all_of_run? ran'⟩
          · cases found
        · cases found
      · cases found

/-- A rule for all of a word goes on to be one after a minus sign. -/
theorem signed?_eq {rule? : List Char → Option (List Char × List Char)} {holds : List Char → Bool}
    (rule : ∀ cs, (∀ c ∈ cs, isWordChar c = true) →
      rule? cs = if holds cs then some (cs, []) else none)
    (chars : ∀ c ∈ r, isWordChar c = true) :
    Shape.signed? rule? r = if holds (unsigned r) then some (r, []) else none := by
  by_cases minus : r.head? = some '-'
  · obtain ⟨cs, rfl⟩ := List.head?_eq_some_iff.1 minus
    rw [Shape.signed?, rule cs (List.forall_mem_cons.1 chars).2, unsigned]
    split <;> rfl
  · have same : unsigned r = r := by
      unfold unsigned
      split
      · exact absurd rfl minus
      · rfl
    rw [Shape.signed?_of_head minus, rule r chars, same]

theorem keyword?_eq {w : List Char} (chars : ∀ c ∈ r, isWordChar c = true) :
    Shape.keyword? w r = if r = w then some (w, []) else none := by
  unfold Shape.keyword?
  by_cases same : r = w
  · subst same
    simp [atBoundary]
  · rw [if_neg same, if_neg]
    intro found
    obtain ⟨starts, ends⟩ := Bool.and_eq_true_iff.1 found
    obtain ⟨tail, rfl⟩ := List.isPrefixOf_iff_prefix.1 starts
    rw [List.drop_left] at ends
    have none := eq_nil_of_atBoundary (List.forall_mem_append.1 chars).2 ends
    exact same (by rw [none, List.append_nil])

/-- Whether a longest run as a whole has a shape. -/
def hasShape (r : List Char) : Shape → Bool
  | .float => isDecimal r
  | .int => isInteger r
  | .boolean => r == "true".toList || r == "false".toList
  | .nil => r == "nil".toList
  | .arrow => r == "->".toList
  | .name => true
  | _ => false

theorem not_isDecimal (integer : isInteger r = true) : isDecimal r = false := by
  refine Bool.eq_false_iff.2 fun decimal => ?_
  obtain ⟨whole, fraction, split, _⟩ := isPointed_iff.1 decimal
  have digits := (isDigits_iff.1 integer).2
  rw [split] at digits
  cases digits '.' (by simp)

/-- A shape matches all of a run or nothing. -/
theorem matches?_run (word : IsWord r) (ends : atBoundary left = true) (shape : Shape)
    (other : shape ≠ .definition) :
    shape.matches? (r ++ left) = if hasShape r shape then some (r, left) else none := by
  obtain ⟨nonempty, chars⟩ := word
  have whole (b : Bool) : Option.map (Shape.followed left) (if b then some (r, []) else none) =
      if b then some (r, left) else none := by
    cases b <;> rfl
  have keyword (w : List Char) (chars' : w.all isWordChar = true) :
      Shape.keyword? w (r ++ left) = if r == w then some (r, left) else none := by
    rw [Shape.keyword?_local chars' r left ends, keyword?_eq chars, ← whole]
    by_cases same : r = w <;> simp [same]
  obtain ⟨c, cs, rfl⟩ := List.exists_cons_of_ne_nil nonempty
  have first : c ∉ delimiters := isWordChar_iff.1 (chars c List.mem_cons_self)
  have apart {d : Char} (delimiter : d ∈ delimiters) : c ≠ d := fun same => first (same ▸ delimiter)
  cases shape with
  | float =>
    rw [Shape.matches?, Shape.signed?_local Shape.unsignedFloat?_local _ _ ends,
      signed?_eq (fun _ => unsignedFloat?_eq) chars]
    exact whole _
  | int =>
    rw [Shape.matches?, Shape.signed?_local Shape.unsignedInt?_local _ _ ends,
      signed?_eq (fun _ => unsignedInt?_eq) chars]
    exact whole _
  | boolean =>
    simp only [Shape.matches?, keyword "true".toList (by decide),
      keyword "false".toList (by decide), hasShape]
    have either (a b : Bool) : ((if a then some (c :: cs, left) else none).orElse fun _ =>
        if b then some (c :: cs, left) else none) =
          if a || b then some (c :: cs, left) else none := by
      cases a <;> rfl
    exact either _ _
  | nil => exact keyword _ (by decide)
  | arrow => exact keyword _ (by decide)
  | name =>
    have taken : Shape.run? isWordChar (c :: cs) = some (c :: cs, []) :=
      Shape.run?_of_all nonempty chars
    rw [Shape.matches?, Shape.word?_local _ _ ends, Shape.word?, taken]
    rfl
  | definition => exact absurd rfl other
  | string => exact if_neg (apart (by decide))
  | symbol => exact if_neg (apart (by decide))
  | typeName => exact if_neg (apart (by decide))
  | opening bracket => exact if_neg (apart (by cases bracket <;> decide))
  | closing bracket => exact if_neg (apart (by cases bracket <;> decide))

theorem definition?_colon (word : IsWord r) (left : List Char) :
    Shape.definition? (r ++ ':' :: left) = some (r ++ [':'], left) := by
  have taken : Shape.word? (r ++ ':' :: left) = some (r, ':' :: left) :=
    matches?_run word rfl .name (by decide)
  simp only [Shape.definition?, taken]

end

/-- What a piece of a text says is the reading. -/
inductive Reads : Shape → List Char → Reading → Prop
  | integer {numeral} : Reads .int numeral (.integer numeral)
  | word {shape text lexeme} : (∀ origin, Piece.lexeme? ⟨shape, text, origin⟩ = some lexeme) →
      Reads shape text (.word lexeme)

/-- The grammar finds at the front of a text what the reader finds. -/
def Agrees (cs : List Char) : Except Flaw (Reading × List Char) → Prop
  | .error _ => Shape.first? cs = none
  | .ok (reading, left) =>
    ∃ shape text, Shape.first? cs = some (shape, text, left) ∧ Reads shape text reading

section

variable {r left : List Char}

theorem literal?_eq_none_iff :
    literal? r = none ↔ isInteger r = false ∧ isDecimal r = false ∧ keywords.lookup r = none := by
  unfold literal?
  cases isInteger r <;> cases isDecimal r <;> simp

theorem mem_of_lookup {lexeme : Lexeme} (found : keywords.lookup r = some lexeme) :
    (r, lexeme) ∈ keywords := by
  obtain ⟨before, after, split, _⟩ := List.lookup_eq_some_iff.1 found
  rw [split]
  simp

/-- Shapes that a run does not have are passed. -/
theorem none_of_hasShape (word : IsWord r) (ends : atBoundary left = true) {earlier : List Shape}
    (others : ∀ s ∈ earlier, s ≠ .definition ∧ hasShape r s = false) :
    ∀ s ∈ earlier, s.matches? (r ++ left) = none := by
  intro s member
  rw [matches?_run word ends s (others s member).1, (others s member).2]
  rfl

/-- The first shape that a run has is found. -/
theorem agrees_of_hasShape (word : IsWord r) (ends : atBoundary left = true)
    (earlier : List Shape) (shape : Shape) {later : List Shape} {reading : Reading}
    (order : Shape.all = earlier ++ shape :: later) (other : shape ≠ .definition)
    (others : ∀ s ∈ earlier, s ≠ .definition ∧ hasShape r s = false)
    (own : hasShape r shape = true) (reads : Reads shape r reading) :
    Agrees (r ++ left) (.ok (reading, left)) := by
  refine ⟨shape, r, Shape.first?_of_earlier earlier order ?_ ?_, reads⟩
  · exact none_of_hasShape word ends others
  · rw [matches?_run word ends shape other, own]
    rfl

theorem agrees_keyword {lexeme : Lexeme} (keyword : (r, lexeme) ∈ keywords)
    (ends : atBoundary left = true) : Agrees (r ++ left) (.ok (.word lexeme, left)) := by
  simp only [keywords, List.mem_cons, Prod.mk.injEq, List.not_mem_nil, or_false] at keyword
  rcases keyword with ⟨rfl, rfl⟩ | ⟨rfl, rfl⟩ | ⟨rfl, rfl⟩ | ⟨rfl, rfl⟩
  · exact agrees_of_hasShape (by decide) ends [.float, .int, .string] .boolean rfl
      (by decide) (by decide) (by decide) (.word fun _ => rfl)
  · exact agrees_of_hasShape (by decide) ends [.float, .int, .string] .boolean rfl
      (by decide) (by decide) (by decide) (.word fun _ => rfl)
  · exact agrees_of_hasShape (by decide) ends (Shape.all.take 4) .nil rfl
      (by decide) (by decide) (by decide) (.word fun _ => rfl)
  · exact agrees_of_hasShape (by decide) ends (Shape.all.take 5) .arrow rfl
      (by decide) (by decide) (by decide) (.word fun _ => rfl)

theorem agrees_literal (word : IsWord r) (ends : atBoundary left = true) {reading : Reading}
    (literal : literal? r = some reading) : Agrees (r ++ left) (.ok (reading, left)) := by
  unfold literal? at literal
  split at literal
  · next integer =>
    cases literal
    refine agrees_of_hasShape word ends [.float] .int rfl (by decide) ?_ integer .integer
    simp [hasShape, not_isDecimal integer]
  · split at literal
    · next decimal =>
      cases literal
      exact agrees_of_hasShape word ends [] .float rfl (by decide) (List.forall_mem_nil _) decimal
        (.word fun _ => rfl)
    · obtain ⟨lexeme, found, rfl⟩ := Option.map_eq_some_iff.1 literal
      exact agrees_keyword (mem_of_lookup found) ends

/-- A run that is no literal has no shape but that of a name. -/
theorem hasShape_of_name (name : literal? r = none) :
    ∀ s ∈ Shape.all.take 14, s ≠ .definition ∧ hasShape r s = false := by
  obtain ⟨integer, decimal, other⟩ := literal?_eq_none_iff.1 name
  have apart := List.lookup_eq_none_iff.1 other
  simp only [keywords, List.forall_mem_cons, bne_iff_ne, ne_eq] at apart
  obtain ⟨isTrue, isFalse, isNil, isArrow, _⟩ := apart
  simpa [Shape.all, hasShape, integer, decimal] using ⟨⟨isTrue, isFalse⟩, isNil, isArrow⟩

theorem ofRun_of_name (name : literal? r = none) (plain : left.head? ≠ some ':') :
    ofRun r left = (.word (.name (String.ofList r)), left) := by
  unfold ofRun
  rw [name]
  dsimp only
  split
  · exact absurd rfl plain
  · rfl

theorem agrees_run (word : IsWord r) (ends : atBoundary left = true) :
    Agrees (r ++ left) (.ok (ofRun r left)) := by
  cases literal : literal? r with
  | some reading =>
    simp only [ofRun, literal]
    exact agrees_literal word ends literal
  | none =>
    have passed := none_of_hasShape word ends (hasShape_of_name literal)
    by_cases colon : left.head? = some ':'
    · obtain ⟨left, rfl⟩ := List.head?_eq_some_iff.1 colon
      simp only [ofRun, literal]
      refine ⟨.definition, r ++ [':'], ?_, .word fun _ => by simp [Piece.lexeme?]⟩
      exact Shape.first?_of_earlier (Shape.all.take 14) rfl passed (definition?_colon word left)
    · rw [ofRun_of_name literal colon]
      refine ⟨.name, r, ?_, .word fun _ => rfl⟩
      have taken := matches?_run word ends .name (by decide)
      apply Shape.first?_of_earlier (Shape.all.take 15) rfl _ taken
      have last : Shape.definition.matches? (r ++ left) = none :=
        Shape.definition?_of_isWord word ⟨ends, colon⟩
      exact List.forall_mem_append.2 ⟨passed, List.forall_mem_singleton.2 last⟩

end

/-! ### One token -/

theorem atBoundary_dropWhile (cs : List Char) : atBoundary (cs.dropWhile isWordChar) = true := by
  have stop := List.head?_dropWhile_not isWordChar cs
  cases tail : cs.dropWhile isWordChar with
  | nil => rfl
  | cons c rest =>
    rw [tail] at stop
    simpa [isWordChar, atBoundary] using stop

theorem isWord_cons_takeWhile {c : Char} (char : isWordChar c = true) (rest : List Char) :
    IsWord (c :: rest.takeWhile isWordChar) :=
  ⟨List.cons_ne_nil _ _, List.forall_mem_cons.2 ⟨char, List.all_eq_true.1 List.all_takeWhile⟩⟩

/-- The character that a shape other than a word starts with. -/
def markOf? : Shape → Option Char
  | .string => some '"'
  | .opening bracket => some bracket.opening
  | .closing bracket => some bracket.closing
  | .symbol => some '\''
  | .typeName => some ':'
  | _ => none

/-- No word starts with a delimiter. -/
theorem matches?_of_delimiter {c : Char} (delimiter : isDelimiter c = true) {shape : Shape}
    (other : markOf? shape ≠ some c) (rest : List Char) : shape.matches? (c :: rest) = none := by
  -- A rule that reads up to the next boundary reads nothing in front of one.
  have nothing {rule? : List Char → Option (List Char × List Char)} (rule : Shape.Local rule?)
      (empty : rule? [] = none) : rule? (c :: rest) = none := by
    have same := rule [] (c :: rest) delimiter
    rwa [empty] at same
  have apart {d : Char} (mark : markOf? shape = some d) : ¬ c = d := by
    rintro rfl
    exact other mark
  have keyword (w : List Char) (chars : w.all isWordChar = true) (nonempty : w ≠ []) :
      Shape.keyword? w (c :: rest) = none := by
    refine nothing (Shape.keyword?_local chars) ?_
    rw [keyword?_eq (List.forall_mem_nil _), if_neg nonempty.symm]
  have word : Shape.word? (c :: rest) = none := nothing Shape.word?_local rfl
  cases shape with
  | float => exact nothing (Shape.signed?_local Shape.unsignedFloat?_local) rfl
  | int => exact nothing (Shape.signed?_local Shape.unsignedInt?_local) rfl
  | boolean =>
    simp only [Shape.matches?, keyword "true".toList (by decide) (by decide),
      keyword "false".toList (by decide) (by decide)]
    rfl
  | nil => exact keyword _ (by decide) (by decide)
  | arrow => exact keyword _ (by decide) (by decide)
  | definition => simp only [Shape.matches?, Shape.definition?, word]
  | name => exact word
  | string => exact if_neg (apart rfl)
  | symbol => exact if_neg (apart rfl)
  | typeName => exact if_neg (apart rfl)
  | opening bracket => exact if_neg (apart rfl)
  | closing bracket => exact if_neg (apart rfl)

theorem findSome?_of_unique {α β : Type} {l : List α} {f : α → Option β} {a : α} (member : a ∈ l)
    (others : ∀ b ∈ l, b ≠ a → f b = none) : l.findSome? f = f a := by
  cases found : f a with
  | none =>
    rw [List.findSome?_eq_none_iff]
    intro b inside
    by_cases same : b = a
    · rw [same, found]
    · exact others b inside same
  | some x =>
    have single : (l.findSome? f).isSome := List.findSome?_isSome_iff.2 ⟨a, member, by simp [found]⟩
    obtain ⟨y, hit⟩ := Option.isSome_iff_exists.1 single
    obtain ⟨b, inside, here⟩ := List.exists_of_findSome?_eq_some hit
    have same : b = a := by
      by_contra other
      rw [others b inside other] at here
      cases here
    rw [hit, ← here, same, found]

/-- Where a mark stands, only the shape that starts with it can be found. -/
theorem first?_of_mark {c : Char} (own : Shape) (delimiter : isDelimiter c = true)
    (known : own ∈ Shape.all)
    (unique : ∀ shape ∈ Shape.all, markOf? shape = some c → shape = own) (rest : List Char) :
    Shape.first? (c :: rest) = (own.matches? (c :: rest)).map (own, ·) := by
  apply findSome?_of_unique known
  intro shape member other
  rw [matches?_of_delimiter delimiter fun mark => other (unique shape member mark)]
  rfl

theorem agrees_string (rest : List Char) : Agrees ('"' :: rest) (ofString rest) := by
  have first := first?_of_mark .string (show isDelimiter '"' = true from rfl) (by decide)
    (by decide) rest
  have rule : Shape.string.matches? ('"' :: rest) =
      (untilQuote false rest).map fun found => ('"' :: (found.1 ++ ['"']), found.2) := by
    simp [Shape.matches?, Shape.marked?, quoted?_eq, Function.comp_def]
  rw [rule] at first
  unfold ofString
  cases found : untilQuote false rest with
  | none =>
    rw [found] at first
    exact first
  | some pair =>
    obtain ⟨text, left⟩ := pair
    rw [found] at first
    refine ⟨_, _, first, .word fun _ => ?_⟩
    simp [Piece.lexeme?]

/-- A mark makes a token of the word after it. -/
theorem agrees_mark {c : Char} {own : Shape} {make : String → Lexeme} {rest : List Char}
    (first : Shape.first? (c :: rest) = (own.matches? (c :: rest)).map (own, ·))
    (rule : own.matches? (c :: rest) = (Shape.word? rest).map fun found => (c :: found.1, found.2))
    (content : ∀ w origin, Piece.lexeme? ⟨own, c :: w, origin⟩ = some (make (String.ofList w))) :
    Agrees (c :: rest) (ofMark make rest) := by
  rw [rule, Shape.word?, Shape.run?] at first
  unfold ofMark
  split
  · next empty =>
    rw [if_pos empty] at first
    exact first
  · next nonempty =>
    rw [if_neg nonempty] at first
    exact ⟨_, _, first, .word fun origin => content _ origin⟩

theorem bracket?_eq_some {c : Char} {lexeme : Lexeme} (found : bracket? c = some lexeme) :
    ∃ bracket : Bracket, (c = bracket.opening ∧ lexeme = .opening bracket) ∨
      (c = bracket.closing ∧ lexeme = .closing bracket) := by
  obtain ⟨bracket, _, here⟩ := List.exists_of_findSome?_eq_some found
  refine ⟨bracket, ?_⟩
  split at here
  · next opening =>
    cases here
    exact .inl ⟨opening, rfl⟩
  · split at here
    · next closing =>
      cases here
      exact .inr ⟨closing, rfl⟩
    · cases here

/-- What is neither skipped, a mark nor a bracket starts a word. -/
theorem isWordChar_of_bracket? {c : Char} (visible : isBlank c = false) (comment : c ≠ '#')
    (quote : c ≠ '"') (symbol : c ≠ '\'') (type : c ≠ ':') (free : bracket? c = none) :
    isWordChar c = true := by
  have neither (bracket : Bracket) : c ≠ bracket.opening ∧ c ≠ bracket.closing := by
    have member : bracket ∈ [Bracket.array, .quote, .params] := by cases bracket <;> decide
    have none := List.findSome?_eq_none_iff.1 free bracket member
    split at none
    · cases none
    · next opening =>
      split at none
      · cases none
      · next closing => exact ⟨opening, closing⟩
  have array : c ≠ '[' ∧ c ≠ ']' := neither .array
  have quotation : c ≠ '{' ∧ c ≠ '}' := neither .quote
  have params : c ≠ '(' ∧ c ≠ ')' := neither .params
  simp [isWordChar, isDelimiter, visible, comment, quote, symbol, type, array, quotation, params]

theorem agrees_munch {c : Char} (visible : isBlank c = false) (comment : c ≠ '#')
    (rest : List Char) : Agrees (c :: rest) (munch c rest) := by
  unfold munch
  split
  · next quote =>
    subst quote
    exact agrees_string rest
  · next quote =>
    split
    · next mark =>
      subst mark
      refine agrees_mark (first?_of_mark .symbol rfl (by decide) (by decide) rest) ?_ fun _ _ => rfl
      simp [Shape.matches?, Shape.marked?]
    · next symbol =>
      split
      · next mark =>
        subst mark
        refine agrees_mark (first?_of_mark .typeName rfl (by decide) (by decide) rest) ?_
          fun _ _ => rfl
        simp [Shape.matches?, Shape.marked?]
      · next type =>
        split
        · next lexeme found =>
          obtain ⟨bracket, ⟨rfl, rfl⟩ | ⟨rfl, rfl⟩⟩ := bracket?_eq_some found
          · exact ⟨_, _, Shape.first?_opening bracket rest, .word fun _ => rfl⟩
          · exact ⟨_, _, Shape.first?_closing bracket rest, .word fun _ => rfl⟩
        · next free =>
          have char := isWordChar_of_bracket? visible comment quote symbol type free
          have whole : c :: rest =
              (c :: rest.takeWhile isWordChar) ++ rest.dropWhile isWordChar := by
            rw [List.cons_append, List.takeWhile_append_dropWhile]
          rw [whole]
          exact agrees_run (isWord_cons_takeWhile char rest) (atBoundary_dropWhile rest)

/-! ### All of a text -/

/-- Where skipping stops, something has to be read. -/
theorem visible_of_skip {cs rest : List Char} {c : Char} (skipped : skip cs = c :: rest) :
    isBlank c = false ∧ c ≠ '#' := by
  fun_induction skip cs with
  | case1 cs after _ ih => exact ih skipped
  | case2 cs other =>
    have stop := List.head?_dropWhile_not isBlank cs
    rw [skipped] at stop other
    constructor
    · simpa using stop
    · rintro rfl
      exact other rest rfl

theorem skip_skip (cs : List Char) : skip (skip cs) = skip cs := by
  cases skipped : skip cs with
  | nil => exact skip_nil
  | cons c rest =>
    obtain ⟨visible, comment⟩ := visible_of_skip skipped
    exact skip_of_visible visible comment rest

theorem gap_skip (cs : List Char) : gap false (skip cs) = ([], skip cs) := by
  have after : (gap false (skip cs)).2 = skip cs := (gap_snd _).1.trans (skip_skip cs)
  have whole := gap_append false (skip cs)
  rw [after] at whole
  exact Prod.ext (List.append_left_eq_self.1 whole) after

/-- What is skipped only moves the place. -/
theorem pieces_skip (cs : List Char) :
    ∃ between, cs = between ++ skip cs ∧
      ∀ origin, pieces origin cs = pieces (origin.after between) (skip cs) := by
  have after : gap false cs = ((gap false cs).1, skip cs) := Prod.ext rfl (gap_snd cs).1
  refine ⟨(gap false cs).1, ?_, fun origin => ?_⟩
  · rw [← (gap_snd cs).1, gap_append]
  · rw [pieces, pieces, gap_skip, after]
    rfl

theorem pieces_of_first?_none {c : Char} {rest : List Char} (visible : isBlank c = false)
    (comment : c ≠ '#') (nothing : Shape.first? (c :: rest) = none) (origin : Origin) :
    pieces origin (c :: rest) = .error origin := by
  have stays : gap false (c :: rest) = ([], c :: rest) := by simp [gap, visible, comment]
  rw [pieces, stays]
  split
  · rfl
  · next found => cases nothing.symm.trans found

/-- Pieces and what was read, one by one at the same places; or a failure at the same place. -/
def Match : Except Origin (List Piece) → Except Origin (List (Reading × Origin)) → Prop
  | .error place, .error place' => place = place'
  | .ok found, .ok readings =>
    List.Forall₂ (fun piece reading => piece.origin = reading.2 ∧
      Reads piece.shape piece.text reading.1) found readings
  | _, _ => False

theorem Match.cons {piece : Piece} {reading : Reading × Origin}
    {found : Except Origin (List Piece)} {scanned : Except Origin (List (Reading × Origin))}
    (same : piece.origin = reading.2 ∧ Reads piece.shape piece.text reading.1)
    (rest : Match found scanned) :
    Match (found.map (piece :: ·)) (scanned.map (reading :: ·)) := by
  cases found with
  | error place =>
    cases scanned with
    | error place' => exact rest
    | ok readings => exact rest.elim
  | ok more =>
    cases scanned with
    | error place' => exact rest.elim
    | ok readings => exact List.Forall₂.cons same rest

theorem ending_append (before text : List Char) :
    (Origin.ending before).after text = Origin.ending (before ++ text) := by
  rw [← Origin.after_start, ← Origin.after_start, Origin.after_append]

theorem placeOf_append (before rest : List Char) :
    placeOf (before ++ rest) rest = Origin.ending before := by
  rw [placeOf, List.length_append, Nat.add_sub_cancel, List.take_left]

/-- The pieces of a text are what the reader finds. -/
theorem pieces_match {whole before cs : List Char} (split : whole = before ++ cs) :
    Match (pieces (Origin.ending before) cs) (scan whole cs) := by
  -- The scan looks at a text after skipping, so the pieces are those of the skipped text as well.
  obtain ⟨between, parts, moved⟩ := pieces_skip cs
  rw [moved, ending_append]
  fun_induction scan whole cs generalizing before between with
  | case1 cs skipped =>
    rw [skipped, pieces_nil]
    exact .nil
  | case2 cs c rest skipped flaw read =>
    obtain ⟨visible, comment⟩ := visible_of_skip skipped
    have nothing := agrees_munch visible comment rest
    rw [read] at nothing
    rw [skipped] at parts ⊢
    rw [split, parts, ← List.append_assoc, placeOf_append,
      pieces_of_first?_none visible comment nothing]
    rfl
  | case3 cs c rest skipped reading left read ih =>
    obtain ⟨visible, comment⟩ := visible_of_skip skipped
    have agrees := agrees_munch visible comment rest
    rw [read] at agrees
    obtain ⟨shape, text, first, reads⟩ := agrees
    have taken := (Shape.first?_splits first).1
    obtain ⟨between', parts', moved'⟩ := pieces_skip left
    rw [skipped] at parts ⊢
    have split' : whole = ((before ++ between) ++ text) ++ left := by
      rw [split, parts, taken]
      simp only [List.append_assoc]
    have rest_match := ih split' between' parts' moved'
    rw [pieces_of_first? first, ending_append, moved', ending_append]
    have here : placeOf whole (c :: rest) = Origin.ending (before ++ between) := by
      rw [split, parts, ← List.append_assoc, placeOf_append]
    rw [here]
    exact Match.cons ⟨rfl, reads⟩ rest_match

/-! ### Integers -/

/-- An integer is the word it stands for, or does not fit. -/
theorem read_of_reads {piece : Piece} {reading : Reading × Origin}
    (place : piece.origin = reading.2) (reads : Reads piece.shape piece.text reading.1) :
    piece.read =
      match tooLarge? reading with
      | some e => .error e
      | none => .ok ⟨reading.1.lexeme, reading.2⟩ := by
  obtain ⟨shape, text, origin⟩ := piece
  obtain ⟨reading, _⟩ := reading
  obtain rfl : origin = _ := place
  cases reads with
  | integer =>
    simp only [Piece.read, Piece.lexeme?, Number.word?, Number.ofInt?, tooLarge?]
    by_cases fits : Number.FitsWord (Number.ofNumeral text)
    · rw [if_pos fits, if_pos fits]
      rfl
    · rw [if_neg fits, if_neg fits]
      rfl
  | word content =>
    rw [Piece.read, content]
    rfl

theorem mapM_read_of_reads {found : List Piece} {readings : List (Reading × Origin)}
    (same : List.Forall₂ (fun piece reading => piece.origin = reading.2 ∧
      Reads piece.shape piece.text reading.1) found readings) :
    found.mapM Piece.read =
      match readings.findSome? tooLarge? with
      | some e => .error e
      | none => .ok (readings.map fun (reading, origin) => ⟨reading.lexeme, origin⟩) := by
  induction same with
  | nil => rfl
  | @cons piece reading _ readings head _ ih =>
    rw [List.mapM_cons, read_of_reads head.1 head.2, ih, List.findSome?_cons]
    cases tooLarge? reading with
    | some e => rfl
    | none =>
      cases readings.findSome? tooLarge? <;> rfl

theorem tokenize_eq (source : String) : tokenize source = tokens source := by
  have same := pieces_match (List.nil_append source.toList).symm
  rw [← Origin.after_start, Origin.after_nil] at same
  unfold tokenize tokens
  cases found : pieces .start source.toList with
  | error place =>
    cases scanned : scan source.toList source.toList with
    | error place' =>
      rw [found, scanned] at same
      cases same
      rfl
    | ok readings =>
      rw [found, scanned] at same
      exact same.elim
  | ok more =>
    cases scanned : scan source.toList source.toList with
    | error place' =>
      rw [found, scanned] at same
      exact same.elim
    | ok readings =>
      rw [found, scanned] at same
      exact mapM_read_of_reads same

/-! ### Where the reader halts -/

/-- Whether what comes after a text is escaped: the backslashes at its end are odd in number. -/
def escapes (text : List Char) : Bool := (text.reverse.takeWhile (· == '\\')).length % 2 == 1

/-- The texts from which on the reader looks for the next token. -/
inductive Comes : List Char → List Char → Prop
  | here {cs} : Comes cs (skip cs)
  | later {cs c rest reading left here} : skip cs = c :: rest →
      munch c rest = .ok (reading, left) → Comes left here → Comes cs here

/-- A string in which every quote is escaped, or a mark that no word follows. -/
def Stuck : List Char → Prop
  | [] => False
  | c :: rest =>
    (c = '"' ∧ ∀ before after, rest = before ++ '"' :: after → escapes before = true) ∨
      ((c = '\'' ∨ c = ':') ∧ atBoundary rest = true)

theorem escapes_append_singleton (text : List Char) (c : Char) :
    escapes (text ++ [c]) = (!escapes text && c == '\\') := by
  unfold escapes
  rw [List.reverse_append, List.reverse_singleton, List.singleton_append, List.takeWhile_cons]
  by_cases backslash : c = '\\'
  · simp only [backslash, beq_self_eq_true, if_true, List.length_cons, Bool.and_true]
    grind
  · simp [backslash]

theorem forall_split_cons {c : Char} {cs : List Char} {holds : List Char → Prop} :
    (∀ more after, c :: cs = more ++ '"' :: after → holds more) ↔
      (c = '"' → holds []) ∧ ∀ more after, cs = more ++ '"' :: after → holds (c :: more) := by
  constructor
  · intro all
    exact ⟨fun quote => all [] cs (by rw [quote]; rfl),
      fun more after split => all (c :: more) after (by rw [split]; rfl)⟩
  · rintro ⟨first, others⟩ more after split
    cases more with
    | nil => exact first (List.cons.inj split).1
    | cons d more =>
      obtain ⟨rfl, tail⟩ := List.cons.inj split
      exact others more after tail

/-- No quote ends a string if each one is escaped. -/
theorem untilQuote_eq_none_iff {before cs : List Char} :
    untilQuote (escapes before) cs = none ↔
      ∀ more after, cs = more ++ '"' :: after → escapes (before ++ more) = true := by
  -- Whether the next character is escaped depends on what has been read, so the induction is over
  -- all of that.
  induction cs generalizing before with
  | nil => simp [untilQuote]
  | cons c cs ih =>
    have step := @ih (before ++ [c])
    simp only [List.append_assoc, List.singleton_append] at step
    rw [forall_split_cons, ← step, escapes_append_singleton, List.append_nil]
    cases escapes before with
    | true => simp [untilQuote]
    | false =>
      by_cases quote : c = '"'
      · simp [untilQuote, quote]
      · simp [untilQuote, quote]

theorem ofMark_eq_error_iff {make : String → Lexeme} {rest : List Char} :
    (∃ flaw, ofMark make rest = .error flaw) ↔ atBoundary rest = true := by
  have empty : (rest.takeWhile isWordChar).isEmpty = atBoundary rest := by
    cases rest with
    | nil => rfl
    | cons c rest =>
      cases word : isDelimiter c <;> simp [isWordChar, atBoundary, word]
  unfold ofMark
  rw [empty]
  cases atBoundary rest <;> simp

/-- Nothing can be read exactly at an open string and at a bare mark. -/
theorem munch_eq_error_iff {c : Char} {rest : List Char} :
    (∃ flaw, munch c rest = .error flaw) ↔ Stuck (c :: rest) := by
  unfold munch
  split
  · next quote =>
    have all := @untilQuote_eq_none_iff [] rest
    simp only [List.nil_append] at all
    rw [Stuck, ← all]
    subst quote
    have unescaped : escapes [] = false := rfl
    unfold ofString
    cases found : untilQuote false rest <;> simp [found, unescaped]
  · next quote =>
    split
    · next symbol => simp [Stuck, symbol, ofMark_eq_error_iff]
    · next symbol =>
      split
      · next type => simp [Stuck, type, ofMark_eq_error_iff]
      · next type =>
        have running : ¬ Stuck (c :: rest) := by simp [Stuck, quote, symbol, type]
        split <;> simp [running]

theorem exists_map_eq_error {α β : Type} {found : Except Origin α} {f : α → β} :
    (∃ place, found.map f = .error place) ↔ ∃ place, found = .error place := by
  cases found <;> simp [Except.map]

/-- The scan fails exactly if it comes to such a place. -/
theorem scan_eq_error_iff {whole cs : List Char} :
    (∃ place, scan whole cs = .error place) ↔ ∃ rest, Comes cs rest ∧ Stuck rest := by
  fun_induction scan whole cs with
  | case1 cs skipped =>
    refine iff_of_false ?_ ?_
    · rintro ⟨_, ⟨⟩⟩
    · rintro ⟨rest, comes, stuck⟩
      cases comes with
      | here =>
        rw [skipped] at stuck
        exact stuck
      | later skipped' => cases skipped.symm.trans skipped'
  | case2 cs c rest skipped flaw read =>
    have stuck := munch_eq_error_iff.1 ⟨flaw, read⟩
    exact iff_of_true ⟨_, rfl⟩ ⟨_, skipped ▸ .here, stuck⟩
  | case3 cs c rest skipped reading left read ih =>
    rw [exists_map_eq_error, ih]
    constructor
    · rintro ⟨here, comes, stuck⟩
      exact ⟨here, .later skipped read comes, stuck⟩
    · rintro ⟨here, comes, stuck⟩
      cases comes with
      | here =>
        rw [skipped] at stuck
        obtain ⟨flaw, failed⟩ := munch_eq_error_iff.2 stuck
        cases read.symm.trans failed
      | later skipped' read' comes =>
        cases skipped.symm.trans skipped'
        cases read.symm.trans read'
        exact ⟨here, comes, stuck⟩

/-! ### Integers that do not fit -/

theorem tooLarge?_eq_some_iff {reading : Reading × Origin} {e : ScanError} :
    tooLarge? reading = some e ↔
      ∃ numeral origin, reading = (.integer numeral, origin) ∧
        ¬ Number.FitsWord (Number.ofNumeral numeral) ∧
        e = .number (String.ofList numeral) origin := by
  obtain ⟨reading, origin⟩ := reading
  cases reading with
  | word lexeme => simp [tooLarge?]
  | integer numeral =>
    by_cases fits : Number.FitsWord (Number.ofNumeral numeral)
    · simp [tooLarge?, fits]
    · simp [tooLarge?, fits, eq_comm]

/-- The first integer that does not fit is the one reported. -/
theorem findSome?_tooLarge?_iff {found : List (Reading × Origin)} {text : String}
    {origin : Origin} :
    found.findSome? tooLarge? = some (.number text origin) ↔
      ∃ before numeral after, found = before ++ (.integer numeral, origin) :: after ∧
        text = String.ofList numeral ∧ ¬ Number.FitsWord (Number.ofNumeral numeral) ∧
        ∀ earlier place, (.integer earlier, place) ∈ before →
          Number.FitsWord (Number.ofNumeral earlier) := by
  rw [List.findSome?_eq_some_iff]
  constructor
  · rintro ⟨before, reading, after, rfl, here, fit⟩
    obtain ⟨numeral, origin, rfl, large, same⟩ := tooLarge?_eq_some_iff.1 here
    cases same
    refine ⟨before, numeral, after, rfl, rfl, large, fun earlier place member => ?_⟩
    by_contra unfit
    cases (tooLarge?_eq_some_iff.2 ⟨earlier, place, rfl, unfit, rfl⟩).symm.trans (fit _ member)
  · rintro ⟨before, numeral, after, rfl, rfl, large, fit⟩
    refine ⟨before, _, after, rfl, tooLarge?_eq_some_iff.2 ⟨numeral, origin, rfl, large, rfl⟩, ?_⟩
    intro reading member
    rw [Option.eq_none_iff_forall_ne_some]
    intro e unfit
    obtain ⟨earlier, place, rfl, large, _⟩ := tooLarge?_eq_some_iff.1 unfit
    exact large (fit earlier place member)

theorem tokens_eq_malformed_iff {source : String} :
    (∃ place, tokens source = .error (.malformed source place)) ↔
      ∃ place, scan source.toList source.toList = .error place := by
  unfold tokens
  cases scan source.toList source.toList with
  | error place => exact iff_of_true ⟨place, rfl⟩ ⟨place, rfl⟩
  | ok found =>
    refine iff_of_false ?_ (by rintro ⟨_, ⟨⟩⟩)
    rintro ⟨place, failed⟩
    cases large : found.findSome? tooLarge? with
    | none => simp [large] at failed
    | some e =>
      obtain ⟨reading, _, here⟩ := List.exists_of_findSome?_eq_some large
      obtain ⟨numeral, origin, _, _, rfl⟩ := tooLarge?_eq_some_iff.1 here
      simp [large] at failed

theorem tokens_eq_number_iff {source : String} {text : String} {origin : Origin} :
    tokens source = .error (.number text origin) ↔
      ∃ found, scan source.toList source.toList = .ok found ∧
        found.findSome? tooLarge? = some (.number text origin) := by
  unfold tokens
  cases scan source.toList source.toList with
  | error place => simp
  | ok found => cases large : found.findSome? tooLarge? <;> simp [large]

end Munch

/-- Cutting a text into tokens by trying one shape after another is reading the longest words.
A text is malformed exactly if the reader comes to an open string or a bare mark, and otherwise the
first integer that does not fit a word is an error. -/
theorem tokenize_munches (source : String) :
    tokenize source = Munch.tokens source ∧
      ((∃ place, tokenize source = .error (.malformed source place)) ↔
        ∃ rest, Munch.Comes source.toList rest ∧ Munch.Stuck rest) ∧
      ∀ text origin, tokenize source = .error (.number text origin) ↔
        ∃ before numeral after,
          Munch.scan source.toList source.toList =
            .ok (before ++ (.integer numeral, origin) :: after) ∧
          text = String.ofList numeral ∧ ¬ Number.FitsWord (Number.ofNumeral numeral) ∧
          ∀ earlier place, (.integer earlier, place) ∈ before →
            Number.FitsWord (Number.ofNumeral earlier) := by
  refine ⟨Munch.tokenize_eq source, ?_, fun text origin => ?_⟩
  · rw [Munch.tokenize_eq, Munch.tokens_eq_malformed_iff, Munch.scan_eq_error_iff]
  · rw [Munch.tokenize_eq, Munch.tokens_eq_number_iff]
    simp only [Munch.findSome?_tooLarge?_iff]
    constructor
    · rintro ⟨_, scanned, before, numeral, after, rfl, first⟩
      exact ⟨before, numeral, after, scanned, first⟩
    · rintro ⟨before, numeral, after, scanned, first⟩
      exact ⟨_, scanned, before, numeral, after, rfl, first⟩

end Catena
