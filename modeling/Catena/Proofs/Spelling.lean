import Catena.Text.Quoted
import Catena.Proofs.Words

set_option autoImplicit false

/-!
What a text says. `Spells` describes which words a text is made of, and the scanner finds those
words. Names are words that stand for themselves wherever they are, and a text between quotes is
read back as it was before it was quoted.
-/

namespace Catena

/-! ### Texts and words -/

/-- The text up to `rest` spells these words. -/
inductive Spells : List Char → List Lexeme → List Char → Prop
  | nil {cs} : Spells cs [] cs
  | blank {c cs lexemes rest} : isBlank c = true → Spells cs lexemes rest →
      Spells (c :: cs) lexemes rest
  | piece {cs shape text left lexeme lexemes rest} : Shape.first? cs = some (shape, text, left) →
      Piece.lexeme? ⟨shape, text, .none⟩ = some lexeme → Spells left lexemes rest →
      Spells cs (lexeme :: lexemes) rest

theorem pieces_nil (origin : Origin) : pieces origin [] = .ok [] := by
  rw [pieces]
  rfl

theorem pieces_of_blank {c : Char} (blank : isBlank c = true) (origin : Origin) (cs : List Char) :
    pieces origin (c :: cs) = pieces (origin.next c) cs := by
  have other : (c == '#') = false := beq_false_of_ne (by rintro rfl; cases blank)
  have skipped : gap false (c :: cs) = (c :: (gap false cs).1, (gap false cs).2) := by
    rw [gap, blank, other]
    rfl
  rw [pieces, pieces, skipped]
  rfl

theorem pieces_of_first? {cs text left : List Char} {shape : Shape}
    (first : Shape.first? cs = some (shape, text, left)) (origin : Origin) :
    pieces origin cs = (pieces (origin.after text) left).map (⟨shape, text, origin⟩ :: ·) := by
  rw [pieces, Shape.gap_of_first? first]
  split
  · next none => cases none.symm.trans first
  · next found =>
    cases found.symm.trans first
    rw [Origin.after_nil]
    cases pieces (origin.after text) left <;> rfl

namespace Spells

variable {cs mid rest : List Char} {lexemes more : List Lexeme}

theorem append (spells : Spells cs lexemes mid) (next : Spells mid more rest) :
    Spells cs (lexemes ++ more) rest := by
  induction spells with
  | nil => exact next
  | blank blank _ ih => exact .blank blank (ih next)
  | piece first lexeme _ ih => exact .piece first lexeme (ih next)

theorem blanks {skipped : List Char} (blank : skipped.all isBlank = true)
    (spells : Spells cs lexemes rest) : Spells (skipped ++ cs) lexemes rest := by
  induction skipped with
  | nil => exact spells
  | cons c skipped ih =>
    rw [List.all_cons, Bool.and_eq_true] at blank
    exact .blank blank.1 (ih blank.2)

theorem single {shape : Shape} {text : List Char} {lexeme : Lexeme}
    (first : Shape.first? cs = some (shape, text, rest))
    (word : Piece.lexeme? ⟨shape, text, .none⟩ = some lexeme) : Spells cs [lexeme] rest :=
  .piece first word .nil

/-- A word, whatever comes after it. -/
theorem word {w : List Char} (shape : Shape) {lexeme : Lexeme} (word : IsWord w)
    (first : Shape.first? w = some (shape, w, []))
    (read : Piece.lexeme? ⟨shape, w, .none⟩ = some lexeme) (ends : EndsWord rest) :
    Spells (w ++ rest) [lexeme] rest := by
  refine single ?_ read
  rw [Shape.first?_append word ends, first]
  rfl

/-- The scanner finds the words that a text spells. -/
theorem pieces (spells : Spells cs lexemes rest) (origin : Origin) :
    ∃ found origin', found.map Piece.lexeme? = lexemes.map some ∧
      pieces origin cs = (pieces origin' rest).map (found ++ ·) := by
  induction spells generalizing origin with
  | @nil cs =>
    refine ⟨[], origin, rfl, ?_⟩
    cases Catena.pieces origin cs <;> rfl
  | blank blank _ ih =>
    obtain ⟨found, origin', words, same⟩ := ih (origin.next _)
    exact ⟨found, origin', words, (pieces_of_blank blank origin _).trans same⟩
  | @piece cs shape text left lexeme lexemes rest first word _ ih =>
    obtain ⟨found, origin', words, same⟩ := ih (origin.after text)
    refine ⟨⟨shape, text, origin⟩ :: found, origin', ?_, ?_⟩
    · exact congr (congrArg List.cons word) words
    · rw [pieces_of_first? first, same]
      cases Catena.pieces origin' rest <;> rfl

end Spells

theorem mapM_read {found : List Piece} {lexemes : List Lexeme}
    (words : found.map Piece.lexeme? = lexemes.map some) :
    ∃ tokens, found.mapM Piece.read = .ok tokens ∧ tokens.map Token.lexeme = lexemes := by
  induction found generalizing lexemes with
  | nil =>
    obtain rfl : lexemes = [] := by simpa using words.symm
    exact ⟨[], rfl, rfl⟩
  | cons piece found ih =>
    obtain ⟨lexeme, lexemes, rfl, word, rest⟩ := List.map_eq_cons_iff.1 words.symm
    obtain ⟨tokens, read, rfl⟩ := ih rest.symm
    refine ⟨⟨lexeme, piece.origin⟩ :: tokens, ?_, rfl⟩
    have first : piece.read = .ok ⟨lexeme, piece.origin⟩ := by rw [Piece.read, ← word]
    rw [List.mapM_cons, first]
    simp only [bind, Except.bind, read]
    rfl

theorem Spells.tokenize {source : String} {lexemes : List Lexeme}
    (spells : Spells source.toList lexemes []) :
    ∃ tokens, tokenize source = .ok tokens ∧ tokens.map Token.lexeme = lexemes := by
  obtain ⟨found, origin, words, same⟩ := spells.pieces .start
  rw [pieces_nil] at same
  obtain ⟨tokens, read, lexemes⟩ := mapM_read words
  refine ⟨tokens, ?_, lexemes⟩
  rw [Catena.tokenize, same]
  simpa [Except.map] using read

/-! ### Names -/

/-- A text that is a name when it stands alone. -/
def IsName (text : String) : Prop := ∃ origin, tokenize text = .ok [⟨.name text, origin⟩]

theorem Piece.eq_of_read {piece : Piece} {text : String} {origin : Origin}
    (read : piece.read = .ok ⟨.name text, origin⟩) :
    piece.shape = .name ∧ piece.text = text.toList := by
  have lexeme : piece.lexeme? = some (.name text) := by
    rw [Piece.read] at read
    split at read
    · next lexeme => cases read; exact lexeme
    · cases read
  obtain ⟨shape, chars, place⟩ := piece
  cases shape with
  | name =>
    cases lexeme
    exact ⟨rfl, String.toList_ofList.symm⟩
  | _ => simp [Piece.lexeme?] at lexeme

/-- The only piece of a text is all of it. -/
theorem first?_of_pieces {cs : List Char} {origin : Origin} {piece : Piece}
    (found : pieces origin cs = .ok [piece]) (whole : piece.text = cs) :
    Shape.first? cs = some (piece.shape, cs, []) := by
  rw [pieces] at found
  split at found
  · split at found <;> cases found
  · next shape text rest first =>
    split at found
    · cases found
      obtain rfl : text = cs := whole
      -- The text is a part of itself, so nothing stands before or after it.
      have parts := gap_append false text
      rw [(Shape.first?_splits first).1] at parts
      have lengths := congrArg List.length parts
      simp only [List.length_append] at lengths
      have before : (gap false text).1 = [] := List.eq_nil_of_length_eq_zero (by omega)
      have after : rest = [] := List.eq_nil_of_length_eq_zero (by omega)
      have all := gap_append false text
      rw [before, List.nil_append] at all
      rw [all, after] at first
      exact first
    · cases found

theorem mapM_read_cons {piece : Piece} {more : List Piece} {tokens : List Token}
    (read : (piece :: more).mapM Piece.read = .ok tokens) :
    ∃ t rest, tokens = t :: rest ∧ piece.read = .ok t ∧ more.mapM Piece.read = .ok rest := by
  rw [List.mapM_cons] at read
  cases first : piece.read with
  | error e =>
    rw [first] at read
    cases read
  | ok t =>
    cases others : more.mapM Piece.read with
    | error e =>
      rw [first, others] at read
      cases read
    | ok rest =>
      rw [first, others] at read
      cases read
      exact ⟨t, rest, rfl, rfl, rfl⟩

theorem IsName.exists_piece {text : String} (name : IsName text) :
    ∃ piece origin, pieces .start text.toList = .ok [piece] ∧
      piece.read = .ok ⟨.name text, origin⟩ := by
  obtain ⟨origin, scanned⟩ := name
  rw [tokenize] at scanned
  split at scanned
  · next found cut =>
    cases found with
    | nil => cases scanned
    | cons piece more =>
      obtain ⟨t, rest, one, read, others⟩ := mapM_read_cons scanned
      cases one
      cases more with
      | nil => exact ⟨piece, origin, cut, read⟩
      | cons next more =>
        obtain ⟨_, _, none, _⟩ := mapM_read_cons others
        cases none
  · cases scanned

theorem IsName.first? {text : String} (name : IsName text) :
    Shape.first? text.toList = some (.name, text.toList, []) := by
  obtain ⟨piece, origin, cut, read⟩ := name.exists_piece
  obtain ⟨shape, whole⟩ := Piece.eq_of_read read
  rw [first?_of_pieces cut whole, shape]

theorem isWord_of_first? {cs : List Char} (first : Shape.first? cs = some (.name, cs, [])) :
    IsWord cs := by
  obtain ⟨shape, _, matched⟩ := List.exists_of_findSome?_eq_some first
  obtain ⟨found, same, eq⟩ := Option.map_eq_some_iff.1 matched
  cases eq
  rw [Shape.matches?, Shape.word?, Shape.run?] at same
  split at same
  · cases same
  · next nonempty =>
    have all : cs.takeWhile isWordChar = cs := congrArg Prod.fst (Option.some.inj same)
    rw [all] at nonempty
    refine ⟨by simpa using nonempty, fun c member => ?_⟩
    rw [← all] at member
    exact List.all_eq_true.1 List.all_takeWhile c member

theorem IsName.spells {text : String} (name : IsName text) {rest : List Char}
    (ends : EndsWord rest) : Spells (text.toList ++ rest) [.name text] rest :=
  .word .name (isWord_of_first? name.first?) name.first? (by simp [Piece.lexeme?]) ends

theorem isName_of_first? {text : String}
    (first : Shape.first? text.toList = some (.name, text.toList, [])) : IsName text := by
  have spells : Spells text.toList [.name text] [] := .single first (by simp [Piece.lexeme?])
  obtain ⟨tokens, scanned, lexemes⟩ := spells.tokenize
  obtain ⟨⟨_, origin⟩, rfl, rfl⟩ := List.map_eq_singleton_iff.1 lexemes
  exact ⟨origin, scanned⟩

/-! ### Strings -/

/-- A character that is shown as it is, or by an escape that can be read. -/
def Writable (c : Char) : Prop :=
  Text.escapeChar c = c.toString ∨ c ∈ ['"', '\\', '\n', '\t', '\r']

instance (c : Char) : Decidable (Writable c) := inferInstanceAs (Decidable (_ ∨ _))

/-- How a character is written. -/
inductive Written : Char → List Char → Prop
  | plain {c} : c ≠ '"' → c ≠ '\\' → Written c [c]
  | escaped {c d} : (∀ rest, unescape ('\\' :: d :: rest) = c :: unescape rest) →
      Written c ['\\', d]

theorem Writable.written {c : Char} (writable : Writable c) :
    Written c (Text.escapeChar c).toList := by
  rcases writable with plain | escaped
  · have other {d : Char} (differs : (Text.escapeChar d).toList ≠ [d]) : c ≠ d := by
      rintro rfl
      exact differs (by rw [plain]; simp)
    rw [plain]
    have toList : c.toString.toList = [c] := by simp
    rw [toList]
    exact .plain (other (by decide)) (other (by decide))
  · simp only [List.mem_cons, List.not_mem_nil, or_false] at escaped
    rcases escaped with rfl | rfl | rfl | rfl | rfl <;> exact .escaped fun _ => rfl

/-- The text between the quotes. -/
def escaped (cs : List Char) : List Char := cs.flatMap fun c => (Text.escapeChar c).toList

theorem toList_quoted (text : String) :
    (Text.quoted text).toList = '"' :: (escaped text.toList ++ ['"']) := by
  simp [Text.quoted, escaped, List.flatMap_map]

theorem quoted?_escaped {cs : List Char} (writable : ∀ c ∈ cs, Writable c) (rest : List Char) :
    Shape.quoted? (escaped cs ++ '"' :: rest) = some (escaped cs ++ ['"'], rest) := by
  induction cs with
  | nil => rfl
  | cons c cs ih =>
    obtain ⟨first, others⟩ := List.forall_mem_cons.1 writable
    have written := first.written
    rw [escaped, List.flatMap_cons, List.append_assoc]
    change Shape.quoted? (_ ++ (escaped cs ++ _)) = some (_ ++ escaped cs ++ _, rest)
    generalize (Text.escapeChar c).toList = text at written
    cases written with
    | plain quote backslash =>
      rw [List.singleton_append, Shape.quoted?, ih others]
      · rfl
      · exact fun same => absurd same quote
      · exact fun _ _ same _ => absurd same backslash
      · exact fun same _ => absurd same backslash
    | escaped _ =>
      rw [List.cons_append, List.singleton_append, Shape.quoted?, ih others]
      rfl

theorem unescape_escaped {cs : List Char} (writable : ∀ c ∈ cs, Writable c) :
    unescape (escaped cs) = cs := by
  induction cs with
  | nil => rfl
  | cons c cs ih =>
    obtain ⟨first, others⟩ := List.forall_mem_cons.1 writable
    have written := first.written
    rw [escaped, List.flatMap_cons]
    change unescape (_ ++ escaped cs) = _
    generalize (Text.escapeChar c).toList = text at written
    cases written with
    | plain quote backslash =>
      rw [List.singleton_append, unescape, ih others]
      exact fun _ _ same _ => absurd same backslash
    | escaped value =>
      rw [List.cons_append, List.singleton_append, value, ih others]

theorem spells_quoted {text : String} (writable : ∀ c ∈ text.toList, Writable c)
    (rest : List Char) : Spells ((Text.quoted text).toList ++ rest) [.str text] rest := by
  have split : (Text.quoted text).toList ++ rest =
      '"' :: (escaped text.toList ++ '"' :: rest) := by
    rw [toList_quoted, List.cons_append, List.append_assoc, List.singleton_append]
  rw [split]
  refine .single (Shape.first?_string (quoted?_escaped writable rest)) ?_
  simp [Piece.lexeme?, unescape_escaped writable]

end Catena
