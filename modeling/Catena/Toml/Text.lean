set_option autoImplicit false

/-!
Blanks, comments, texts and keys of TOML. Every function takes the characters that are left and
answers those that are left after it.

A text stands between single or double quotes, or between three of them if it has several lines.
Escapes count only between double quotes.
-/

namespace Catena.Toml

def isBlank (c : Char) : Bool := c = ' ' || c = '\t'

private def isBareKey (c : Char) : Bool := c.isAlphanum || c = '_' || c = '-'

/-- Control characters other than the tab stand nowhere but in escapes. -/
def isPlain (c : Char) : Bool := c = '\t' || (0x20 ≤ c.toNat && c.toNat ≠ 0x7f)

def skipBlanks (cs : List Char) : List Char := cs.dropWhile isBlank

/-- What follows the end of a line that stands right here. -/
def newline? : List Char → Option (List Char)
  | '\n' :: rest => some rest
  | '\r' :: '\n' :: rest => some rest
  | _ => none

/-- What follows the end of a line, which may have a comment before it. -/
def lineEnd? (cs : List Char) : Option (List Char) :=
  let cs := skipBlanks cs
  let cs :=
    match cs with
    | '#' :: comment => comment.dropWhile isPlain
    | other => other
  if cs.isEmpty then some [] else newline? cs

/-- Skips blanks, comments and ends of lines. -/
def skipGap : (inComment : Bool) → List Char → List Char
  | _, [] => []
  | _, '\n' :: rest => skipGap false rest
  | _, '\r' :: '\n' :: rest => skipGap false rest
  | true, c :: rest => if isPlain c then skipGap true rest else c :: rest
  | false, c :: rest =>
    if isBlank c then skipGap false rest
    else if c = '#' then skipGap true rest
    else c :: rest

def hexValue? (c : Char) : Option Nat :=
  if c.isDigit then some (c.toNat - '0'.toNat)
  else if 'a' ≤ c && c ≤ 'f' then some (c.toNat - 'a'.toNat + 10)
  else if 'A' ≤ c && c ≤ 'F' then some (c.toNat - 'A'.toNat + 10)
  else none

/-- The character with the code that hexadecimal digits spell. -/
def codePoint? (digits : List Char) : Option Char := do
  let values ← digits.mapM hexValue?
  let code := values.foldl (fun n d => 16 * n + d) 0
  if code.isValidChar then some (Char.ofNat code) else none

private def escaped? (c : Char) : Option Char :=
  if c = 'b' then some '\x08'
  else if c = 't' then some '\t'
  else if c = 'n' then some '\n'
  else if c = 'f' then some '\x0c'
  else if c = 'r' then some '\r'
  else if c = '"' then some '"'
  else if c = '\\' then some '\\'
  else none

private def followedBy (c : Char) (read : Option (List Char × List Char)) :
    Option (List Char × List Char) :=
  read.map fun (text, rest) => (c :: text, rest)

/-- The rest of a text in double quotes, after the opening ones. Of several lines, a backslash at
the end of a line takes away all space that follows, which is `trimming`. Up to two quotes may stand
before the three that close such a text. -/
def basicText? (multiline : Bool) : (trimming : Bool) → List Char →
    Option (List Char × List Char)
  | _, [] => none
  | _, '"' :: rest =>
    if multiline then
      match rest with
      | '"' :: '"' :: '"' :: '"' :: rest => some (['"', '"'], rest)
      | '"' :: '"' :: '"' :: rest => some (['"'], rest)
      | '"' :: '"' :: rest => some ([], rest)
      | rest => followedBy '"' (basicText? multiline false rest)
    else some ([], rest)
  | _, '\\' :: rest =>
    if multiline && (newline? (skipBlanks rest)).isSome then basicText? multiline true rest
    else
      match rest with
      | 'u' :: a :: b :: c :: d :: rest => do
        followedBy (← codePoint? [a, b, c, d]) (basicText? multiline false rest)
      | 'U' :: a :: b :: c :: d :: e :: f :: g :: h :: rest => do
        followedBy (← codePoint? [a, b, c, d, e, f, g, h]) (basicText? multiline false rest)
      | c :: rest => do
        followedBy (← escaped? c) (basicText? multiline false rest)
      | [] => none
  | trimming, '\r' :: '\n' :: rest =>
    if !multiline then none
    else if trimming then basicText? multiline true rest
    else followedBy '\n' (basicText? multiline false rest)
  | trimming, c :: rest =>
    if trimming && (isBlank c || c = '\n') then basicText? multiline true rest
    else if isPlain c || (multiline && c = '\n') then
      followedBy c (basicText? multiline false rest)
    else none

/-- The rest of a text of one line in single quotes, after the opening one. -/
def literalText? (cs : List Char) : Option (List Char × List Char) :=
  let inText := fun (c : Char) => isPlain c && c ≠ '\''
  match cs.dropWhile inText with
  | '\'' :: rest => some (cs.takeWhile inText, rest)
  | _ => none

/-- The rest of a text of several lines in single quotes, after the opening ones. -/
def literalLines? : List Char → Option (List Char × List Char)
  | [] => none
  | '\'' :: rest =>
    match rest with
    | '\'' :: '\'' :: '\'' :: '\'' :: rest => some (['\'', '\''], rest)
    | '\'' :: '\'' :: '\'' :: rest => some (['\''], rest)
    | '\'' :: '\'' :: rest => some ([], rest)
    | rest => followedBy '\'' (literalLines? rest)
  | '\r' :: '\n' :: rest => followedBy '\n' (literalLines? rest)
  | c :: rest => if isPlain c || c = '\n' then followedBy c (literalLines? rest) else none

/-- A text of several lines does not begin with the end of the line it is opened on. -/
private def afterOpening (cs : List Char) : List Char := (newline? cs).getD cs

private def asString (read : Option (List Char × List Char)) : Option (String × List Char) :=
  read.map fun (text, rest) => (String.ofList text, rest)

def text? : List Char → Option (String × List Char)
  | '"' :: '"' :: '"' :: rest => asString (basicText? true false (afterOpening rest))
  | '"' :: rest => asString (basicText? false false rest)
  | '\'' :: '\'' :: '\'' :: rest => asString (literalLines? (afterOpening rest))
  | '\'' :: rest => asString (literalText? rest)
  | _ => none

def key? (cs : List Char) : Option (String × List Char) :=
  match cs with
  | '"' :: rest => asString (basicText? false false rest)
  | '\'' :: rest => asString (literalText? rest)
  | _ =>
    let name := cs.takeWhile isBareKey
    if name.isEmpty then none else some (String.ofList name, cs.dropWhile isBareKey)

/-- Keys with points between them, at most as many as the limit says. -/
def path? : (limit : Nat) → List Char → Option (List String × List Char)
  | 0, _ => none
  | limit + 1, cs => do
    let (key, rest) ← key? (skipBlanks cs)
    match skipBlanks rest with
    | '.' :: rest =>
      let (keys, rest) ← path? limit rest
      some (key :: keys, rest)
    | rest => some ([key], rest)

end Catena.Toml
