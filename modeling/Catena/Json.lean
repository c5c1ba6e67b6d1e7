import Catena.Number.Layout
import Catena.Token.Basic
import Catena.Value.Display

set_option autoImplicit false

/-!
Values and tokens as JSON text, on one line or indented.
-/

namespace Catena

inductive Json where
  | null
  | bool (b : Bool)
  | int (n : Int)
  | float (x : Float)
  | str (text : String)
  | array (items : List Json)
  | object (fields : List (String × Json))

namespace Json

/-- Exponents are written below `1e-5` and from `1e16` on, always with a sign. There is no text for
numbers that are not finite. -/
def floatLayout : Number.Layout where
  positional lead := -5 ≤ lead && lead < 16
  exactWhole := false
  plus := "+"
  tie := .even
  nan := "null"
  infinity := "null"

def floatText (x : Float) : String :=
  if x.isFinite then floatLayout.write x else "null"

private def hexDigit (n : Nat) : String := String.ofList (Nat.toDigits 16 n)

/-- Only quotes, backslashes and the characters below the space are escaped. -/
def escapeChar (c : Char) : String :=
  if c = '"' then "\\\""
  else if c = '\\' then "\\\\"
  else if c = '\n' then "\\n"
  else if c = '\r' then "\\r"
  else if c = '\t' then "\\t"
  else if c = '\x08' then "\\b"
  else if c = '\x0c' then "\\f"
  else if c.toNat < 0x10 then "\\u000" ++ hexDigit c.toNat
  else if c.toNat < 0x20 then "\\u00" ++ hexDigit c.toNat
  else c.toString

def strText (text : String) : String :=
  "\"" ++ String.join (text.toList.map escapeChar) ++ "\""

mutual

def compact : Json → String
  | .null => "null"
  | .bool true => "true"
  | .bool false => "false"
  | .int n => toString n
  | .float x => floatText x
  | .str text => strText text
  | .array items => "[" ++ compactItems items ++ "]"
  | .object fields => "\x7b" ++ compactFields fields ++ "\x7d"

def compactItems : List Json → String
  | [] => ""
  | [item] => compact item
  | item :: rest => compact item ++ "," ++ compactItems rest

def compactFields : List (String × Json) → String
  | [] => ""
  | [(name, item)] => strText name ++ ":" ++ compact item
  | (name, item) :: rest => strText name ++ ":" ++ compact item ++ "," ++ compactFields rest

end

private def newline (depth : Nat) : String :=
  "\n" ++ String.ofList (List.replicate (2 * depth) ' ')

mutual

/-- Two more blanks for each level; empty containers stay on one line. -/
def prettyAt (depth : Nat) : Json → String
  | .null => "null"
  | .bool true => "true"
  | .bool false => "false"
  | .int n => toString n
  | .float x => floatText x
  | .str text => strText text
  | .array [] => "[]"
  | .array (item :: rest) => "[" ++ prettyItems (depth + 1) (item :: rest) ++ newline depth ++ "]"
  | .object [] => "\x7b\x7d"
  | .object (field :: rest) =>
    "\x7b" ++ prettyFields (depth + 1) (field :: rest) ++ newline depth ++ "\x7d"

def prettyItems (depth : Nat) : List Json → String
  | [] => ""
  | [item] => newline depth ++ prettyAt depth item
  | item :: rest => newline depth ++ prettyAt depth item ++ "," ++ prettyItems depth rest

def prettyFields (depth : Nat) : List (String × Json) → String
  | [] => ""
  | [(name, item)] => newline depth ++ strText name ++ ": " ++ prettyAt depth item
  | (name, item) :: rest =>
    newline depth ++ strText name ++ ": " ++ prettyAt depth item ++ "," ++ prettyFields depth rest

end

def pretty (j : Json) : String := prettyAt 0 j

end Json

mutual

/-- Values that have no counterpart in JSON become texts. -/
def Value.toJson : Value → Json
  | .int n => .int n.toInt
  | .float x => .float x
  | .bool b => .bool b
  | .str text => .str text
  | .nil => .null
  | .array _ items => .array (Value.toJsonItems items)
  | .error e =>
    let origin :=
      match e.origin with
      | some o => .object [("column", .int o.column), ("line", .int o.line)]
      | none => .null
    .object [("error", .str e.message), ("origin", origin)]
  | other => .str other.display

def Value.toJsonItems : List Value → List Json
  | [] => []
  | item :: rest => Value.toJson item :: Value.toJsonItems rest

end

def Bracket.label : Bracket → String
  | .array => "Array"
  | .quote => "Quote"
  | .params => "Params"

namespace Lexeme

def label : Lexeme → String
  | .int _ => "Int"
  | .float _ => "Flt"
  | .str _ => "Str"
  | .bool _ => "Bool"
  | .nil => "Nil"
  | .sym _ => "Sym"
  | .define _ => "Define"
  | .type _ => "Type"
  | .opening _ => "Open"
  | .closing _ => "Close"
  | .arrow => "Arrow"
  | .name _ => "Name"

/-- What a token carries besides its kind. -/
def payload? : Lexeme → Option Json
  | .int n => some (.int n.toInt)
  | .float x => some (.float x)
  | .str text => some (.str text)
  | .bool b => some (.bool b)
  | .sym text => some (.str text)
  | .define text => some (.str text)
  | .type text => some (.str text)
  | .name text => some (.str text)
  | .opening bracket => some (.str bracket.label)
  | .closing bracket => some (.str bracket.label)
  | .nil => none
  | .arrow => none

/-- In listings of tokens, exponents are written below `1e-4` and from `1e16` on. -/
def floatListing : Number.Layout where
  positional lead := -4 ≤ lead && lead < 16
  exactWhole := false
  plus := ""
  tie := .up
  nan := "NaN"
  infinity := "inf"

/-- The token as listings show it. -/
def listing (lexeme : Lexeme) : String :=
  let text? :=
    match lexeme with
    | .int n => some (toString n.toInt)
    | .float x => some (floatListing.write x)
    | .bool true => some "true"
    | .bool false => some "false"
    | .str text => some (Text.quoted text)
    | .sym text => some (Text.quoted text)
    | .define text => some (Text.quoted text)
    | .type text => some (Text.quoted text)
    | .name text => some (Text.quoted text)
    | .opening bracket => some bracket.label
    | .closing bracket => some bracket.label
    | .nil => none
    | .arrow => none
  match text? with
  | some text => s!"{lexeme.label}({text})"
  | none => lexeme.label

end Lexeme

def Token.toJson (t : Token) : Json :=
  let kind :=
    match t.lexeme.payload? with
    | some payload => [("t", .str t.lexeme.label), ("v", payload)]
    | none => [("t", .str t.lexeme.label)]
  .object [("kind", .object kind),
    ("origin", .object [("line", .int t.origin.line), ("column", .int t.origin.column)])]

end Catena
