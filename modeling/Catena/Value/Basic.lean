import Catena.Bindings
import Catena.Error
import Catena.Primitive
import Catena.Signature

set_option autoImplicit false

/-!
The values a program works on. Arrays, quotations and closures carry the identity they got when they
were made: closures are equal only to themselves, and an array that holds a NaN equals itself but no
other array.

Closures and operations are parameterised by the type of values, which ties the knot below.
-/

namespace Catena

/-- Delimiters left on the stack while a container is assembled. -/
inductive Marker where
  | arrayOpen
  /-- A `]` inside a quotation; it builds the array when the quotation runs. -/
  | arrayClose
  | quoteOpen
  | paramsOpen
  | arrow
  deriving DecidableEq, Repr

/-- A quotation that has kept the scope it was made in. -/
structure Closure (V : Type) where
  id : Nat
  name : Option String
  body : List V
  signature : Option Signature
  scope : Bindings V

/-- A field of a struct: the struct's type, the field's name, its place in an instance and its own
type. -/
structure Field where
  owner : String
  name : String
  index : Nat
  type : Option String
  deriving DecidableEq, Repr

/-- What an operation made by a data declaration does. Those that check types know the predicates of
their own declaration. -/
inductive DataAction (V : Type) where
  | construct (type : String) (fields : Signature) (types : Bindings V)
  | isInstance (type : String)
  | isVariant (variants : List String)
  | get (field : Field)
  | set (field : Field) (types : Bindings V)
  | update (field : Field) (types : Bindings V)

structure DataOp (V : Type) where
  name : String
  action : DataAction V

/-- How an operation outside the machine answers. -/
inductive Reply (V : Type) where
  | value (v : V)
  | nothing
  | failure (e : RuntimeError)

/-- When an awaited answer arrives. -/
inductive Future (V : Type) where
  | ready (reply : Reply V)
  /-- After some milliseconds. -/
  | later (milliseconds : Nat) (reply : Reply V)
  | never

/-- Nothing is waited for but the time. -/
abbrev Future.timer {V : Type} (milliseconds : Nat) : Future V := .later milliseconds .nothing

/-- What cancelling an awaited operation does. -/
inductive CancelAction where
  | silent
  /-- Tells the host. -/
  | signal
  deriving DecidableEq, Repr

/-- An operation that the machine waits for. -/
structure Pending (V : Type) where
  label : String
  future : Future V
  cancel : Option CancelAction

/-- What a builtin does: one of the language's own operators, or something the host provides. -/
inductive BuiltinAction (V : Type) where
  | primitive (p : Primitive)
  | reply (r : Reply V)
  | await (pending : Pending V)

structure Builtin (V : Type) where
  name : String
  action : BuiltinAction V

inductive Operation (V : Type) where
  | builtin (b : Builtin V)
  | data (d : DataOp V)

def Operation.name {V : Type} : Operation V → String
  | .builtin b => b.name
  | .data d => d.name

inductive Value where
  | int (n : Int64)
  | float (x : Float)
  | bool (b : Bool)
  | str (text : String)
  | sym (name : String)
  | nil
  | array (id : Nat) (items : List Value)
  /-- Code that is pushed as data and runs when it is invoked. -/
  | quote (id : Nat) (code : List Value)
  | closure (c : Closure Value)
  | op (o : Operation Value) (origin : Origin)
  | signature (s : Signature)
  | marker (m : Marker)
  /-- A name inside a quotation, looked up when the quotation runs. -/
  | ref (name : String) (origin : Origin)
  | error (e : LocatedError)

abbrev Scope := Bindings Value

instance : Inhabited Value := ⟨.nil⟩

namespace Closure

/-- The name under which every running closure finds itself. -/
def selfName : String := "recur"

/-- The scope in which the closure runs. It is not part of the closure, which would otherwise have
to contain itself. -/
def activation (c : Closure Value) : Scope :=
  let scope := c.scope.insert selfName (.closure c)
  match c.name with
  | some name => scope.insert name (.closure c)
  | none => scope

end Closure

end Catena
