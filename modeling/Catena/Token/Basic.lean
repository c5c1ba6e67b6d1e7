import Catena.Origin

set_option autoImplicit false

/-!
Tokens: what a source text says, word by word, and where each word stands.
-/

namespace Catena

inductive Bracket where
  | array
  | quote
  | params
  deriving DecidableEq, Repr

/-- The characters that open and close a container. -/
def Bracket.opening : Bracket → Char
  | .array => '['
  | .quote => '{'
  | .params => '('

def Bracket.closing : Bracket → Char
  | .array => ']'
  | .quote => '}'
  | .params => ')'

inductive Lexeme where
  | int (n : Int64)
  | float (x : Float)
  | str (text : String)
  | bool (b : Bool)
  | nil
  | sym (name : String)
  /-- A name that is about to be defined, written `name:`. -/
  | define (name : String)
  | type (name : String)
  | opening (bracket : Bracket)
  | closing (bracket : Bracket)
  | arrow
  | name (name : String)

structure Token where
  lexeme : Lexeme
  origin : Origin

end Catena
