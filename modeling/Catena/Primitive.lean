set_option autoImplicit false

/-!
The operators of the language and their names.
-/

namespace Catena

inductive ArithmeticOp where
  | add
  | sub
  | mul
  | div
  | rem
  deriving DecidableEq, Repr

inductive Comparison where
  | lt
  | gt
  | le
  | ge
  deriving DecidableEq, Repr

inductive AssertionKind where
  | equals
  | notEquals
  | approxEquals
  | notApproxEquals
  deriving DecidableEq, Repr

inductive Primitive where
  | ifElse
  | cond
  | function
  | lambda
  | condFunction
  | loop
  /-- Iteration, with or without the position of each element. -/
  | iterate (withIndex : Bool)
  | break
  | breakIf
  | tailCall
  | call
  | define
  | attempt
  | dataDef
  | dup
  | pop
  | swap
  | copySecond
  | rot
  | clear
  | depth
  | arithmetic (op : ArithmeticOp)
  | neg
  | equal
  | notEqual
  | compare (c : Comparison)
  | not
  | and
  | or
  | append
  | length
  | nth
  | concat
  | raise
  | isError
  | errorMessage
  | sleep
  | assertion (kind : AssertionKind)
  deriving DecidableEq, Repr

def ArithmeticOp.name : ArithmeticOp → String
  | .add => "+"
  | .sub => "-"
  | .mul => "*"
  | .div => "/"
  | .rem => "%"

def Comparison.name : Comparison → String
  | .lt => "<"
  | .gt => ">"
  | .le => "<="
  | .ge => ">="

/-- The operator that checks an assertion. -/
def AssertionKind.operator : AssertionKind → String
  | .equals => "assert-eq"
  | .notEquals => "assert-ne"
  | .approxEquals => "assert-approx"
  | .notApproxEquals => "assert-not-approx"

/-- How reports call it. -/
def AssertionKind.label : AssertionKind → String
  | .equals => "equals"
  | .notEquals => "not-equals"
  | .approxEquals => "approx-equals"
  | .notApproxEquals => "not-approx-equals"

namespace Primitive

def name : Primitive → String
  | .ifElse => "if"
  | .cond => "cond"
  | .function => "fun"
  | .lambda => "lam"
  | .condFunction => "cond-fun"
  | .loop => "loop"
  | .iterate false => "for"
  | .iterate true => "fori"
  | .break => "break"
  | .breakIf => "breakif"
  | .tailCall => "tailcall"
  | .call => "call"
  | .define => "def"
  | .attempt => "try"
  | .dataDef => "datadef"
  | .dup => "dup"
  | .pop => "pop"
  | .swap => "swap"
  | .copySecond => "over"
  | .rot => "rot"
  | .clear => "clear"
  | .depth => "depth"
  | .arithmetic op => op.name
  | .neg => "neg"
  | .equal => "="
  | .notEqual => "!="
  | .compare c => c.name
  | .not => "not"
  | .and => "and"
  | .or => "or"
  | .append => "append"
  | .length => "len"
  | .nth => "nth"
  | .concat => "concat"
  | .raise => "error"
  | .isError => "err?"
  | .errorMessage => "err-msg"
  | .sleep => "sleep"
  | .assertion kind => kind.operator

/-- Every operator once. -/
def all : List Primitive :=
  [.ifElse, .cond, .function, .lambda, .condFunction, .loop, .iterate false, .iterate true, .break,
   .breakIf, .tailCall, .call, .define, .attempt, .dataDef, .dup, .pop, .swap, .copySecond, .rot,
   .clear, .depth, .arithmetic .add, .arithmetic .sub, .arithmetic .mul, .arithmetic .div,
   .arithmetic .rem, .neg, .equal, .notEqual, .compare .lt, .compare .gt, .compare .le,
   .compare .ge, .not, .and, .or, .append, .length, .nth, .concat, .raise, .isError, .errorMessage,
   .sleep, .assertion .equals, .assertion .notEquals, .assertion .approxEquals,
   .assertion .notApproxEquals]

end Primitive

end Catena
