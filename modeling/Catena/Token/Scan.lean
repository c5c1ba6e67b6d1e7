import Catena.Token.Shape

set_option autoImplicit false

/-!
From source text to tokens. The text is first cut into pieces, each of the first shape that matches;
only when the whole text has been cut are the pieces read, so a malformed text is reported before a
number that is too large.
-/

namespace Catena

/-- The blanks and comments at the front, and what follows them. A comment runs from `#` to the end
of its line. -/
def gap : (inComment : Bool) → List Char → List Char × List Char
  | _, [] => ([], [])
  | true, c :: cs =>
    let (skipped, rest) := gap (c != '\n') cs
    (c :: skipped, rest)
  | false, c :: cs =>
    if isBlank c || c == '#' then
      let (skipped, rest) := gap (c == '#') cs
      (c :: skipped, rest)
    else
      ([], c :: cs)

theorem gap_append (inComment : Bool) (cs : List Char) :
    (gap inComment cs).1 ++ (gap inComment cs).2 = cs := by
  fun_induction gap inComment cs <;> simp_all

/-- A piece of the source that has the shape of a token. -/
structure Piece where
  shape : Shape
  text : List Char
  origin : Origin

/-- Cuts a text that starts at `origin` into pieces; an error is the place where no token starts. -/
def pieces (origin : Origin) (cs : List Char) : Except Origin (List Piece) :=
  let skipped := gap false cs
  let here := origin.after skipped.1
  match _found : Shape.first? skipped.2 with
  | none => if skipped.2.isEmpty then .ok [] else .error here
  | some (shape, text, rest) =>
    match pieces (here.after text) rest with
    | .ok more => .ok (⟨shape, text, here⟩ :: more)
    | .error place => .error place
termination_by cs.length
decreasing_by
  obtain ⟨split, nonempty⟩ := Shape.first?_splits _found
  have whole := congrArg List.length (gap_append false cs)
  have := List.length_pos_iff.2 nonempty
  rw [split] at whole
  simp only [List.length_append] at whole
  omega

/-- The text between the quotes, with escapes replaced. -/
def unescape : List Char → List Char
  | '\\' :: c :: rest =>
    (match c with
      | 'n' => '\n'
      | 't' => '\t'
      | 'r' => '\r'
      | other => other) :: unescape rest
  | c :: rest => c :: unescape rest
  | [] => []

/-- What a piece says, unless it is a number out of range. -/
def Piece.lexeme? (piece : Piece) : Option Lexeme :=
  let inner := piece.text.drop 1
  match piece.shape with
  | .float => some (.float (Number.double piece.text))
  | .int => (Number.word? piece.text).map .int
  | .string => some (.str (String.ofList (unescape inner.dropLast)))
  | .boolean => some (.bool (piece.text == "true".toList))
  | .nil => some .nil
  | .arrow => some .arrow
  | .opening bracket => some (.opening bracket)
  | .closing bracket => some (.closing bracket)
  | .symbol => some (.sym (String.ofList inner))
  | .typeName => some (.type (String.ofList inner))
  | .definition => some (.define (String.ofList piece.text.dropLast))
  | .name => some (.name (String.ofList piece.text))

inductive ScanError where
  /-- No token starts here. -/
  | malformed (source : String) (place : Origin)
  /-- An integer that does not fit a word. -/
  | number (text : String) (origin : Origin)
  deriving DecidableEq, Repr

namespace ScanError

/-- Everything that could have stood where a scan failed. At the very start of the text only the
program as a whole is missed. -/
def expectation (place : Origin) : String :=
  if place = Origin.start then "program"
  else
    let labels := "EOI" :: Shape.all.map Shape.label
    ", ".intercalate labels.dropLast ++ ", or " ++ labels.getLastD ""

/-- The text of one line, without carriage returns. -/
def lineText (source : String) (line : Nat) : List Char :=
  (((source.splitOn "\n").getD (line - 1) "").toList).filter (· != '\r')

def message : ScanError → String
  | .malformed source place =>
    let line := lineText source place.line
    let margin := String.ofList (List.replicate (toString place.line).length ' ')
    let indent := (line.take (place.column - 1)).map fun c => if c = '\t' then '\t' else ' '
    "\n".intercalate
      [s!"{margin}--> {place.display}",
       s!"{margin} |",
       s!"{place.line} | {String.ofList line}",
       s!"{margin} | {String.ofList indent}^---",
       s!"{margin} |",
       s!"{margin} = expected {expectation place}"]
  | .number text origin => s!"invalid number `{text}` at {origin.display}"

end ScanError

def Piece.read (piece : Piece) : Except ScanError Token :=
  match piece.lexeme? with
  | some lexeme => .ok ⟨lexeme, piece.origin⟩
  | none => .error (.number (String.ofList piece.text) piece.origin)

def tokenize (source : String) : Except ScanError (List Token) :=
  match pieces Origin.start source.toList with
  | .ok found => found.mapM Piece.read
  | .error place => .error (.malformed source place)

end Catena
