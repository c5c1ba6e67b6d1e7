import Catena.Height
import Catena.Value.ParameterList

set_option autoImplicit false

/-!
Running tokens and values. While a quotation or a parameter list is open, names are pushed for later
and nothing runs.
-/

namespace Catena.Exec

/-- Invokes a value. An operation may hand over to another value; it has taken an operand before, so
this comes to an end. -/
def invoke (v : Value) : Exec Unit := fun m =>
  match v with
  | .quote _ code => pushFrame (.body code) m
  | .closure c => enter c m
  | .op o _ =>
    match _ran : operation o m with
    | .ok none m' => .ok () m'
    | .ok (some next) m' => invoke next m'
    | .error signal m' => .error signal m'
  | other => fail (.notInvocable other) m
termination_by m => m.operands.count
decreasing_by exact (tame_operation o _ _ _ _ran).1

/-- Runs an operation to its end. -/
def invokeOperation (o : Operation Value) : Exec Unit := invoke (.op o .none)

def setOrigin (origin : Origin) : Exec Unit :=
  modify fun m => { m with origin }

/-- Runs what a name stands for. Builtins come first; a bound closure or operation runs, any other
bound value is pushed. -/
def resolve (name : String) : Exec Unit := do
  let m ← get
  match m.registry.get? name with
  | some b => invokeOperation (.builtin b)
  | none =>
    match m.scopes.get? name with
    | some (.closure c) => enter c
    | some (.op o _) => invokeOperation o
    | some v => push v
    | none => fail (.unknownReference name)

/-- The marker that an opening bracket leaves on the stack. -/
def openingMarker : Bracket → Marker
  | .array => .arrayOpen
  | .quote => .quoteOpen
  | .params => .paramsOpen

def countOpen (bracket : Bracket) (count : Nat → Nat) : Exec Unit :=
  match bracket with
  | .array => pure ()
  | .quote => modify fun m => { m with openQuotes := count m.openQuotes }
  | .params => modify fun m => { m with openParams := count m.openParams }

def openContainer (bracket : Bracket) : Exec Unit := do
  countOpen bracket (· + 1)
  push (.marker (openingMarker bracket))

def isMarker (wanted : Marker) : Value → Bool
  | .marker m => m == wanted
  | _ => false

/-- Takes everything down to the opening marker of a container. -/
def popContainer (bracket : Bracket) : Exec (List Value) := fun m =>
  match m.operands.popUntil (isMarker (openingMarker bracket)) with
  | some (items, operands) => .ok items { m with operands }
  | none => .error (.error (.unmatched bracket.closing)) m

def closeContainer (bracket : Bracket) : Exec Unit := do
  let items ← popContainer bracket
  countOpen bracket (· - 1)
  match bracket with
  | .array => pushArray items
  | .quote => push (.quote (← fresh) items)
  | .params => push (.signature (← ofExcept (Signature.ofValues items)))

/-- Runs a value that stands in code. -/
def value (v : Value) : Exec Unit :=
  match v with
  | .marker .arrayClose => closeContainer .array
  | .ref name origin => do
    setOrigin origin
    resolve name
  | .op o origin => do
    setOrigin origin
    invokeOperation o
  | other => push other

/-- A name inside an open container: an operator stays the operator it is now. -/
def deferred (m : Machine) (name : String) (origin : Origin) : Value :=
  match m.registry.get? name with
  | some b => .op (.builtin b) origin
  | none => .ref name origin

def name (name : String) (origin : Origin) : Exec Unit := do
  let m ← get
  if m.isCollecting then push (deferred m name origin) else resolve name

/-- Inside a quotation a closing square bracket waits until the quotation runs. -/
def closing (bracket : Bracket) : Exec Unit := do
  if bracket = .array ∧ 0 < (← get).openQuotes then push (.marker .arrayClose)
  else closeContainer bracket

def token (t : Token) : Exec Unit := do
  setOrigin t.origin
  match t.lexeme with
  | .int n => push (.int n)
  | .float x => push (.float x)
  | .str text => push (.str text)
  | .bool b => push (.bool b)
  | .nil => push .nil
  | .sym text => push (.sym text)
  | .define text => push (.sym text)
  | .type text => push (.sym text)
  | .arrow => push (.marker .arrow)
  | .opening bracket => openContainer bracket
  | .closing bracket => closing bracket
  | .name text => name text t.origin

end Catena.Exec
