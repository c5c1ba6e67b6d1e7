import Catena.Value.Display
import Catena.Proofs.Munch

set_option autoImplicit false

/-!
Writing tokens down. Whatever is put between them, tokens are read as they were written and at the
places where they were written. And what has been read from any source can be written again.
-/

namespace Catena

/-! ### Written tokens -/

/-- A word that is a name: no number, and none of the words that stand for something else. -/
def IsPlainName (text : String) : Prop :=
  IsWord text.toList ∧ Munch.literal? text.toList = none

/-- A token that can be written so that it is read exactly. -/
def Lexeme.Valid : Lexeme → Prop
  | .float _ => False
  | .sym text | .type text => IsWord text.toList
  | .define text | .name text => IsPlainName text
  | _ => True

/-- Quotes and backslashes are escaped, and nothing else. -/
def guarded (cs : List Char) : List Char :=
  cs.flatMap fun c => if c = '"' ∨ c = '\\' then ['\\', c] else [c]

def Lexeme.written : Lexeme → List Char
  | .int n => (toString n.toInt).toList
  | .float x => (floatDisplay.write x).toList
  | .str text => '"' :: (guarded text.toList ++ ['"'])
  | .bool b => (if b then "true" else "false").toList
  | .nil => "nil".toList
  | .sym text => '\'' :: text.toList
  | .define text => text.toList ++ [':']
  | .type text => ':' :: text.toList
  | .opening bracket => [bracket.opening]
  | .closing bracket => [bracket.closing]
  | .arrow => "->".toList
  | .name text => text.toList

/-- Any mix of blanks and of comments that are ended by a newline. -/
inductive Separates : List Char → Prop
  | nil : Separates []
  | blank {c cs} : isBlank c = true → Separates cs → Separates (c :: cs)
  | comment {line cs} : '\n' ∉ line → Separates cs → Separates ('#' :: (line ++ '\n' :: cs))

/-- Tokens, each followed by what separates it from the next. -/
def layout : List (Lexeme × List Char) → List Char
  | [] => []
  | (lexeme, after) :: more => lexeme.written ++ (after ++ layout more)

/-- The tokens of a layout, at the places where they are written after the text `before`. -/
def placed (before : List Char) : List (Lexeme × List Char) → List Token
  | [] => []
  | (lexeme, after) :: more =>
    ⟨lexeme, Origin.ending before⟩ :: placed (before ++ (lexeme.written ++ after)) more

/-! ### Separators -/

namespace Separates

variable {between : List Char}

theorem skip (separates : Separates between) (cs : List Char) :
    Munch.skip (between ++ cs) = Munch.skip cs := by
  induction separates with
  | nil => rfl
  | blank blank _ ih => rw [List.cons_append, Munch.skip_of_isBlank blank, ih]
  | @comment line more inLine _ ih =>
    have inside : ∀ c ∈ line, (c != '\n') = true := by
      intro c member
      rw [bne_iff_ne]
      rintro rfl
      exact inLine member
    rw [List.cons_append, Munch.skip_comment, List.append_assoc,
      List.dropWhile_append_of_pos inside, List.cons_append,
      List.dropWhile_cons_of_neg (by simp), Munch.skip_of_isBlank rfl, ih]

theorem endsWord (separates : Separates between) (nonempty : between ≠ []) (cs : List Char) :
    EndsWord (between ++ cs) := by
  cases separates with
  | nil => contradiction
  | blank blank _ =>
    refine endsWord_cons _ (by simp [isDelimiter, blank]) ?_
    rintro rfl
    cases blank
  | comment _ _ => exact endsWord_cons _ rfl (by decide)

end Separates

/-! ### One token -/

namespace Munch

/-- What stands at the front of a text, and what is left after it. -/
def Begins (cs : List Char) (reading : Reading) (rest : List Char) : Prop :=
  ∃ c tail, cs = c :: tail ∧ isBlank c = false ∧ c ≠ '#' ∧ munch c tail = .ok (reading, rest)

theorem munch_of_isWordChar {c : Char} (char : isWordChar c = true) (rest : List Char) :
    munch c rest = .ok (ofRun (c :: rest.takeWhile isWordChar) (rest.dropWhile isWordChar)) := by
  have apart {d : Char} (delimiter : d ∈ delimiters) : c ≠ d :=
    fun same => isWordChar_iff.1 char (same ▸ delimiter)
  have free : bracket? c = none := by
    cases found : bracket? c with
    | none => rfl
    | some lexeme =>
      obtain ⟨bracket, ⟨same, _⟩ | ⟨same, _⟩⟩ := bracket?_eq_some found
      · exact absurd same (apart (by cases bracket <;> decide))
      · exact absurd same (apart (by cases bracket <;> decide))
  rw [munch, if_neg (apart (by decide)), if_neg (apart (by decide)), if_neg (apart (by decide)),
    free]

theorem not_isWordChar_of_atBoundary {rest : List Char} (ends : atBoundary rest = true) :
    ∀ c ∈ rest.head?, isWordChar c = false := by
  cases rest with
  | nil => simp
  | cons c rest =>
    rintro _ ⟨⟩
    rw [isWordChar, show isDelimiter c = true from ends]
    rfl

/-- A word begins with all of itself. -/
theorem begins_word {w rest : List Char} (word : IsWord w) (ends : atBoundary rest = true) :
    Begins (w ++ rest) (ofRun w rest).1 (ofRun w rest).2 := by
  obtain ⟨nonempty, chars⟩ := word
  obtain ⟨c, w, rfl⟩ := List.exists_cons_of_ne_nil nonempty
  obtain ⟨char, others⟩ := List.forall_mem_cons.1 chars
  have apart := isWordChar_iff.1 char
  obtain ⟨taken, left⟩ := takeWhile_append others (not_isWordChar_of_atBoundary ends)
  refine ⟨c, w ++ rest, rfl, ?_, ?_, ?_⟩
  · refine Bool.eq_false_iff.2 fun blank => apart (isDelimiter_iff.1 ?_)
    simp [isDelimiter, blank]
  · rintro rfl
    exact apart (by decide)
  · rw [munch_of_isWordChar char, taken, left]

theorem begins_literal {w rest : List Char} (word : IsWord w) (ends : atBoundary rest = true)
    {reading : Reading} (literal : literal? w = some reading) :
    Begins (w ++ rest) reading rest := by
  have begins := begins_word word ends
  simpa only [ofRun, literal] using begins

theorem begins_define {w : List Char} (word : IsWord w) (name : literal? w = none)
    (rest : List Char) :
    Begins (w ++ ':' :: rest) (.word (.define (String.ofList w))) rest := by
  have begins := begins_word word (show atBoundary (':' :: rest) = true from rfl)
  simpa only [ofRun, name] using begins

theorem begins_name {w rest : List Char} (word : IsWord w) (name : literal? w = none)
    (ends : EndsWord rest) : Begins (w ++ rest) (.word (.name (String.ofList w))) rest := by
  have begins := begins_word word ends.1
  rwa [ofRun_of_name name ends.2] at begins

/-- A mark takes all of a word. -/
theorem ofMark_word {make : String → Lexeme} {w rest : List Char} (word : IsWord w)
    (ends : atBoundary rest = true) :
    ofMark make (w ++ rest) = .ok (.word (make (String.ofList w)), rest) := by
  obtain ⟨taken, left⟩ := takeWhile_append word.2 (not_isWordChar_of_atBoundary ends)
  rw [ofMark, taken, left, if_neg (by simpa using word.1)]

/-! ### Strings -/

theorem untilQuote_guarded (cs rest : List Char) :
    untilQuote false (guarded cs ++ '"' :: rest) = some (guarded cs, rest) := by
  induction cs with
  | nil => rfl
  | cons c cs ih =>
    rw [guarded, List.flatMap_cons, ← guarded, List.append_assoc]
    split
    · simp [untilQuote, ih]
    · next plain =>
      obtain ⟨quote, backslash⟩ := not_or.1 plain
      have unescaped : (c == '\\') = false := beq_false_of_ne backslash
      simp [untilQuote, quote, unescaped, ih]

theorem unescape_guarded (cs : List Char) : unescape (guarded cs) = cs := by
  induction cs with
  | nil => rfl
  | cons c cs ih =>
    rw [guarded, List.flatMap_cons, ← guarded]
    split
    · next special =>
      rcases special with rfl | rfl
      · simp [unescape, ih]
      · simp [unescape, ih]
    · next plain =>
      obtain ⟨quote, backslash⟩ := not_or.1 plain
      rw [List.singleton_append, unescape, ih]
      exact fun _ _ same _ => absurd same backslash

/-! ### Integers -/

theorem isInteger_toString (n : Int) : isInteger (toString n).toList = true := by
  have digits (n : Nat) : isDigits (Nat.toDigits 10 n) = true :=
    isDigits_iff.2 ⟨Nat.toDigits_ne_nil, isDigit_of_mem_toDigits⟩
  rw [toList_toString_int]
  split
  · rw [isInteger, unsigned]
    · exact digits _
    · intro tail minus
      cases isDigit_of_mem_toDigits '-' (minus ▸ List.mem_cons_self)
  · exact digits _

theorem fitsWord_toString (n : Int64) :
    Number.FitsWord (Number.ofNumeral (toString n.toInt).toList) ∧
      Int64.ofInt (Number.ofNumeral (toString n.toInt).toList) = n := by
  have read := Number.word?_toString n
  rw [Number.word?, Number.ofInt?] at read
  split at read
  · next fits => exact ⟨fits, Option.some.inj read⟩
  · cases read

/-! ### Every token -/

/-- What is read where a token is written. -/
def readingOf : Lexeme → Reading
  | .int n => .integer (toString n.toInt).toList
  | lexeme => .word lexeme

theorem lexeme_readingOf (lexeme : Lexeme) : (readingOf lexeme).lexeme = lexeme := by
  cases lexeme with
  | int n => exact congrArg Lexeme.int (fitsWord_toString n).2
  | _ => rfl

theorem tooLarge?_readingOf (lexeme : Lexeme) (origin : Origin) :
    tooLarge? (readingOf lexeme, origin) = none := by
  cases lexeme with
  | int n => exact if_pos (fitsWord_toString n).1
  | _ => rfl

/-- A token is read where it is written, if no word goes on after it. -/
theorem begins_written {lexeme : Lexeme} (valid : lexeme.Valid) {rest : List Char}
    (ends : EndsWord rest) : Begins (lexeme.written ++ rest) (readingOf lexeme) rest := by
  cases lexeme with
  | int n =>
    refine begins_literal (isWord_toString_int _) ends.1 ?_
    rw [literal?, if_pos (isInteger_toString _)]
    rfl
  | float x => exact valid.elim
  | str text =>
    refine ⟨'"', guarded text.toList ++ '"' :: rest, ?_, rfl, by decide, ?_⟩
    · simp [Lexeme.written]
    · simp [munch, ofString, untilQuote_guarded, unescape_guarded, readingOf]
  | bool b => cases b <;> exact begins_literal (by decide) ends.1 rfl
  | nil => exact begins_literal (by decide) ends.1 rfl
  | arrow => exact begins_literal (by decide) ends.1 rfl
  | sym text =>
    refine ⟨'\'', text.toList ++ rest, rfl, rfl, by decide, ?_⟩
    simp [munch, ofMark_word valid ends.1, readingOf]
  | type text =>
    refine ⟨':', text.toList ++ rest, rfl, rfl, by decide, ?_⟩
    simp [munch, ofMark_word valid ends.1, readingOf]
  | define text =>
    have begins := begins_define valid.1 valid.2 rest
    simpa [Lexeme.written, readingOf] using begins
  | opening bracket => cases bracket <;> exact ⟨_, rest, rfl, rfl, by decide, rfl⟩
  | closing bracket => cases bracket <;> exact ⟨_, rest, rfl, rfl, by decide, rfl⟩
  | name text =>
    have begins := begins_name valid.1 valid.2 ends
    simpa [Lexeme.written, readingOf] using begins

/-! ### Many tokens -/

theorem scan_skip {whole cs cs' : List Char} (same : skip cs = skip cs') :
    scan whole cs = scan whole cs' := by
  rw [scan, scan, same]

theorem scan_of_begins {cs rest : List Char} {reading : Reading} (begins : Begins cs reading rest)
    (whole : List Char) :
    scan whole cs = (scan whole rest).map ((reading, placeOf whole cs) :: ·) := by
  obtain ⟨c, tail, rfl, visible, comment, read⟩ := begins
  rw [scan, skip_of_visible visible comment]
  dsimp only
  rw [read]

/-- The reader finds the tokens of a layout. -/
theorem scan_layout {items : List (Lexeme × List Char)}
    (valid : ∀ item ∈ items, item.1.Valid ∧ Separates item.2)
    (apart : ∀ item ∈ items.dropLast, item.2 ≠ []) (before : List Char) :
    scan (before ++ layout items) (layout items) =
      .ok ((placed before items).map fun t => (readingOf t.lexeme, t.origin)) := by
  induction items generalizing before with
  | nil =>
    rw [layout, scan, skip_nil]
    rfl
  | cons item more ih =>
    obtain ⟨lexeme, after⟩ := item
    obtain ⟨⟨written, separates⟩, others⟩ := List.forall_mem_cons.1 valid
    -- Only the last token may have nothing after it, and then the text ends with it.
    have ends : EndsWord (after ++ layout more) := by
      by_cases last : after = [] ∧ more = []
      · rw [last.1, last.2]
        exact endsWord_nil
      · refine separates.endsWord ?_ _
        intro empty
        obtain ⟨next, more, rfl⟩ := List.exists_cons_of_ne_nil fun none => last ⟨empty, none⟩
        exact apart _ List.mem_cons_self empty
    have apart' : ∀ item ∈ more.dropLast, item.2 ≠ [] := by
      intro item member
      cases more with
      | nil => cases member
      | cons next more => exact apart item (List.mem_cons_of_mem _ member)
    have rest := ih others apart' (before ++ (lexeme.written ++ after))
    rw [List.append_assoc, List.append_assoc] at rest
    rw [layout, scan_of_begins (begins_written written ends), placeOf_append,
      scan_skip (separates.skip _), rest]
    rfl

/-- Tokens are read where they were written. -/
theorem tokenize_layout {lead : List Char} {items : List (Lexeme × List Char)}
    (leads : Separates lead) (valid : ∀ item ∈ items, item.1.Valid ∧ Separates item.2)
    (apart : ∀ item ∈ items.dropLast, item.2 ≠ []) :
    tokenize (String.ofList (lead ++ layout items)) = .ok (placed lead items) := by
  have scanned := scan_layout valid apart lead
  rw [← scan_skip (leads.skip (layout items))] at scanned
  have fits : ((placed lead items).map fun t => (readingOf t.lexeme, t.origin)).findSome?
      tooLarge? = none := by
    rw [List.findSome?_eq_none_iff]
    intro reading member
    obtain ⟨t, _, rfl⟩ := List.mem_map.1 member
    exact tooLarge?_readingOf t.lexeme t.origin
  rw [tokenize_eq, tokens, String.toList_ofList, scanned]
  dsimp only
  rw [fits]
  simp [Function.comp_def, lexeme_readingOf]

/-! ### What has been read can be written -/

/-- Nothing but a float is read that could not be written. -/
def Rewritable (lexeme : Lexeme) : Prop := (∀ x, lexeme ≠ .float x) → lexeme.Valid

theorem isWord_takeWhile {rest : List Char} (nonempty : ¬ (rest.takeWhile isWordChar).isEmpty) :
    IsWord (rest.takeWhile isWordChar) :=
  ⟨by simpa using nonempty, List.all_eq_true.1 List.all_takeWhile⟩

theorem rewritable_ofMark {make : String → Lexeme} {rest left : List Char} {reading : Reading}
    (valid : ∀ w, IsWord w → (make (String.ofList w)).Valid)
    (read : ofMark make rest = .ok (reading, left)) : Rewritable reading.lexeme := by
  unfold ofMark at read
  split at read
  · cases read
  · next nonempty =>
    cases read
    exact fun _ => valid _ (isWord_takeWhile nonempty)

theorem rewritable_literal {r : List Char} {reading : Reading}
    (literal : literal? r = some reading) : Rewritable reading.lexeme := by
  unfold literal? at literal
  split at literal
  · cases literal
    exact fun _ => trivial
  · split at literal
    · cases literal
      exact fun none => absurd rfl (none _)
    · obtain ⟨lexeme, found, rfl⟩ := Option.map_eq_some_iff.1 literal
      have keyword := mem_of_lookup found
      simp only [keywords, List.mem_cons, Prod.mk.injEq, List.not_mem_nil, or_false] at keyword
      rcases keyword with ⟨_, rfl⟩ | ⟨_, rfl⟩ | ⟨_, rfl⟩ | ⟨_, rfl⟩ <;> exact fun _ => trivial

theorem rewritable_ofRun {r : List Char} (word : IsWord r) (left : List Char) :
    Rewritable (ofRun r left).1.lexeme := by
  cases literal : literal? r with
  | some reading =>
    simp only [ofRun, literal]
    exact rewritable_literal literal
  | none =>
    have plain : IsPlainName (String.ofList r) := by
      simpa [IsPlainName] using ⟨word, literal⟩
    simp only [ofRun, literal]
    split <;> exact fun _ => plain

theorem rewritable_munch {c : Char} {rest left : List Char} {reading : Reading}
    (visible : isBlank c = false) (comment : c ≠ '#')
    (read : munch c rest = .ok (reading, left)) : Rewritable reading.lexeme := by
  unfold munch at read
  split at read
  · unfold ofString at read
    split at read
    · cases read
      exact fun _ => trivial
    · cases read
  · next quote =>
    split at read
    · exact rewritable_ofMark (fun w word => by simpa [Lexeme.Valid] using word) read
    · next symbol =>
      split at read
      · exact rewritable_ofMark (fun w word => by simpa [Lexeme.Valid] using word) read
      · next type =>
        split at read
        · next found =>
          cases read
          obtain ⟨bracket, ⟨_, rfl⟩ | ⟨_, rfl⟩⟩ := bracket?_eq_some found
          · exact fun _ => trivial
          · exact fun _ => trivial
        · next free =>
          have char := isWordChar_of_bracket? visible comment quote symbol type free
          have rewritable :=
            rewritable_ofRun (isWord_cons_takeWhile char rest) (rest.dropWhile isWordChar)
          rwa [Except.ok.inj read] at rewritable

theorem rewritable_scan {whole cs : List Char} {found : List (Reading × Origin)}
    (scanned : scan whole cs = .ok found) : ∀ reading ∈ found, Rewritable reading.1.lexeme := by
  fun_induction scan whole cs generalizing found with
  | case1 cs skipped =>
    cases scanned
    exact List.forall_mem_nil _
  | case2 => cases scanned
  | case3 cs c rest skipped reading left read ih =>
    obtain ⟨visible, comment⟩ := visible_of_skip skipped
    cases more : scan whole left with
    | error place =>
      rw [more] at scanned
      cases scanned
    | ok others =>
      rw [more] at scanned
      cases scanned
      exact List.forall_mem_cons.2 ⟨rewritable_munch visible comment read, ih more⟩

theorem rewritable_tokenize {source : String} {tokens : List Token}
    (read : tokenize source = .ok tokens) : ∀ t ∈ tokens, Rewritable t.lexeme := by
  rw [tokenize_eq, Munch.tokens] at read
  split at read
  · cases read
  · next found scanned =>
    split at read
    · cases read
    · cases read
      intro t member
      obtain ⟨reading, inside, rfl⟩ := List.mem_map.1 member
      exact rewritable_scan scanned reading inside

end Munch

/-- Tokens with a blank after each. -/
def spaced (tokens : List Token) : List (Lexeme × List Char) :=
  tokens.map fun t => (t.lexeme, [' '])

theorem map_lexeme_placed (before : List Char) (items : List (Lexeme × List Char)) :
    (placed before items).map Token.lexeme = items.map Prod.fst := by
  induction items generalizing before with
  | nil => rfl
  | cons item more ih => exact congrArg (item.1 :: ·) (ih _)

/-- Tokens that can be written are read as they were written, each at its place, whatever separates
them. All that is read from a source without floats can be written, and then is read again. -/
theorem tokenize_written :
    (∀ lead items, Separates lead → (∀ item ∈ items, item.1.Valid ∧ Separates item.2) →
      (∀ item ∈ items.dropLast, item.2 ≠ []) →
      tokenize (String.ofList (lead ++ layout items)) = .ok (placed lead items)) ∧
    ∀ source tokens, tokenize source = .ok tokens → (∀ t ∈ tokens, ∀ x, t.lexeme ≠ .float x) →
      (∀ t ∈ tokens, t.lexeme.Valid) ∧
        ∃ again, tokenize (String.ofList (layout (spaced tokens))) = .ok again ∧
          again.map Token.lexeme = tokens.map Token.lexeme := by
  refine ⟨fun lead items leads valid apart => Munch.tokenize_layout leads valid apart, ?_⟩
  intro source tokens read floatless
  have valid : ∀ t ∈ tokens, t.lexeme.Valid :=
    fun t member => Munch.rewritable_tokenize read t member (floatless t member)
  have items : ∀ item ∈ spaced tokens, item.1.Valid ∧ item.2 = [' '] := by
    intro item member
    obtain ⟨t, inside, rfl⟩ := List.mem_map.1 member
    exact ⟨valid t inside, rfl⟩
  have separate : ∀ item ∈ spaced tokens, item.1.Valid ∧ Separates item.2 := by
    intro item member
    obtain ⟨written, blank⟩ := items item member
    exact ⟨written, blank ▸ .blank rfl .nil⟩
  have apart : ∀ item ∈ (spaced tokens).dropLast, item.2 ≠ [] := by
    intro item member
    rw [(items item (List.dropLast_subset _ member)).2]
    exact List.cons_ne_nil _ _
  have again := Munch.tokenize_layout .nil separate apart
  rw [List.nil_append] at again
  refine ⟨valid, placed [] (spaced tokens), again, ?_⟩
  rw [map_lexeme_placed, spaced, List.map_map]
  rfl

/-- A comment, a negative number, a word that only starts like one, a quote within a string. -/
theorem tokenize_written_lines :
    tokenize (String.ofList "#\"\n\t-7,-7x:# :\n\"\\\"\n\" truth".toList) =
      .ok [⟨.int (-7), ⟨2, 2⟩⟩, ⟨.define "-7x", ⟨2, 5⟩⟩, ⟨.str "\"\n", ⟨3, 1⟩⟩,
        ⟨.name "truth", ⟨4, 3⟩⟩] := by
  have comment {line : List Char} (inLine : '\n' ∉ line) : Separates ('#' :: (line ++ ['\n'])) :=
    .comment inLine .nil
  have read := tokenize_written.1 ("#\"\n".toList ++ ['\t'])
    [(.int (-7), [',']), (.define "-7x", "# :\n".toList), (.str "\"\n", [' ']), (.name "truth", [])]
    (.comment (show '\n' ∉ ['"'] by decide) (.blank rfl .nil))
    (by
      simp only [List.forall_mem_cons, List.not_mem_nil, false_implies, implies_true, and_true]
      exact ⟨⟨trivial, .blank rfl .nil⟩,
        ⟨⟨by decide, rfl⟩, comment (show '\n' ∉ [' ', ':'] by decide)⟩,
        ⟨trivial, .blank rfl .nil⟩, ⟨by decide, rfl⟩, .nil⟩)
    (by decide)
  have text : ("#\"\n".toList ++ ['\t']) ++ layout [(.int (-7), [',']),
      (.define "-7x", "# :\n".toList), (.str "\"\n", [' ']), (.name "truth", [])] =
        "#\"\n\t-7,-7x:# :\n\"\\\"\n\" truth".toList := by decide
  rw [text] at read
  exact read

end Catena
