import Catena.Iteration
import Catena.Token.Basic

set_option autoImplicit false

/-!
The work a machine still has to do, as a stack of frames, and the signals that leave the ordinary
order of that work.
-/

namespace Catena

inductive Frame where
  /-- Tokens of the program that are still to run. -/
  | program (rest : List Token)
  /-- Elements of a quotation that are still to run. -/
  | body (rest : List Value)
  /-- A closure that is running on this floor. -/
  | call (closure : Closure Value) (floor : Nat)
  | loop (body : List Value)
  | iterate (source : Source) (index : Nat) (withIndex : Bool) (body : List Value)
  /-- Tests and actions that are still to be tried. -/
  | condTest (pairs : List (Value × Value))
  /-- A test is running; its action and the pairs after it. -/
  | condCheck (action : Value) (rest : List (Value × Value))
  /-- Errors above this frame end here and cut the stack to this height. -/
  | attempt (height : Nat)
  /-- The new value of a field is being computed on this floor. -/
  | update (fields : List Value) (field : Field) (types : Scope) (floor : Nat)

/-- How an operation ends when it does not simply return. -/
inductive Signal where
  | break
  | tailCall (target : Closure Value)
  | error (e : RuntimeError)
  | await (pending : Pending Value)

/-- What the machine has to deal with before it goes on. -/
inductive Control where
  | none
  | break
  | tailCall (target : Closure Value)
  | throw (e : LocatedError)
  | suspend

end Catena
