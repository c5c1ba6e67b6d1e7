import Catena.Frame
import Catena.Operands
import Catena.Registry
import Catena.Report
import Catena.Scopes
import Catena.Value.Display

set_option autoImplicit false

/-!
The state of a machine and the small actions on it from which all operations are built.
-/

namespace Catena

structure Machine where
  registry : Registry
  operands : Operands := .empty
  scopes : Scopes := .empty
  frames : Stack Frame := .empty
  control : Control := .none
  pending : Option (Pending Value) := none
  /-- Quotations and parameter lists that are open; while there is one, names are collected instead
  of run. -/
  openQuotes : Nat := 0
  openParams : Nat := 0
  /-- The place of the code that is running. -/
  origin : Origin := .none
  maxFrames : Nat := 100000
  checkpoints : Nat := 0
  /-- Where assertions are counted, if anywhere. -/
  report : Option Report := none
  /-- The identity of the next array, quotation or closure. -/
  nextId : Nat := 0

namespace Machine

def new (registry : Registry) : Machine := { registry }

def isRunning (m : Machine) : Bool := !m.frames.isEmpty || m.pending.isSome

def isCollecting (m : Machine) : Bool := 0 < m.openQuotes || 0 < m.openParams

def isBuiltin (m : Machine) (name : String) : Bool := m.registry.contains name

/-- Forgets everything but the builtins, the limits and the report. -/
def reset (m : Machine) : Machine :=
  { m with
    operands := .empty
    scopes := .empty
    frames := .empty
    control := .none
    pending := none
    openQuotes := 0
    openParams := 0
    checkpoints := 0 }

/-- A machine with the same operands and scopes and no work to do. -/
def copy (m : Machine) : Machine :=
  { m with
    frames := .empty
    control := .none
    pending := none
    openQuotes := 0
    openParams := 0
    checkpoints := 0 }

/-- Drops the work at hand and takes up a program. -/
def load (m : Machine) (tokens : List Token) : Machine :=
  { m with frames := Stack.empty.push (.program tokens), control := .none }

/-- Drops the work at hand and takes up a single value. -/
def loadValue (m : Machine) (v : Value) : Machine :=
  { m with frames := Stack.empty.push (.body [v]), control := .none }

/-- Goes on after a suspension, with the value that was awaited if there is one. -/
def resume (m : Machine) (result : Option Value) : Machine :=
  let operands :=
    match result with
    | some v => m.operands.push v
    | none => m.operands
  { m with operands, control := .none }

def locate (m : Machine) (e : RuntimeError) : LocatedError := ⟨e, some m.origin⟩

/-- Goes on after a suspension whose operation failed. -/
def failPending (m : Machine) (e : RuntimeError) : Machine :=
  { m with control := .throw (m.locate e) }

/-- Binds a name in the active scope. Builtins keep their names. -/
def define (m : Machine) (name : String) (v : Value) : Except RuntimeError Machine :=
  if m.isBuiltin name then .error (.redefinesBuiltin name)
  else .ok { m with scopes := m.scopes.put name v }

/-- Undoes what a frame had set up. -/
def release (m : Machine) : Frame → Machine
  | .call _ floor => { m with scopes := m.scopes.leave, operands := m.operands.allow floor }
  | .update _ _ _ floor => { m with operands := m.operands.allow floor }
  | _ => m

/-- Drops all frames and every trace of the work they stood for. -/
def abort (m : Machine) : Machine :=
  let released := m.frames.toList.foldl release m
  { released with
    frames := .empty
    control := .none
    pending := none
    openQuotes := 0
    openParams := 0 }

end Machine

/-- Actions on a machine that may end with a signal. A signal does not undo what happened before
it. -/
abbrev Exec := EStateM Signal Machine

namespace Exec

def fail {α : Type} (e : RuntimeError) : Exec α := throw (.error e)

def ofExcept {α : Type} : Except RuntimeError α → Exec α
  | .ok a => pure a
  | .error e => fail e

def push (v : Value) : Exec Unit :=
  modify fun m => { m with operands := m.operands.push v }

def pop : Exec Value := fun m =>
  match m.operands.pop with
  | .ok (v, operands) => .ok v { m with operands }
  | .error e => .error (.error e) m

/-- The operand `offset` places below the top, which stays where it is. -/
def peek (offset : Nat) : Exec Value := do
  ofExcept ((← get).operands.peek offset)

/-- Takes an operand that `read?` accepts; otherwise it is an error of the operator that wanted it,
and the operand is gone. -/
def popAs {α : Type} (operator expected : String) (read? : Value → Option α) : Exec α := do
  let v ← pop
  match read? v with
  | some a => pure a
  | none => fail (.mismatch operator expected v)

def popInt (operator : String) : Exec Int64 :=
  popAs operator "Int" fun
    | .int n => some n
    | _ => none

def popBool (operator : String) : Exec Bool :=
  popAs operator "Bool" fun
    | .bool b => some b
    | _ => none

def popStr (operator : String) : Exec String :=
  popAs operator "Str" fun
    | .str text => some text
    | _ => none

def popName (operator : String) : Exec String :=
  popAs operator "a name" fun
    | .sym name => some name
    | _ => none

def popBody (operator : String) : Exec (List Value) :=
  popAs operator "a quotation" fun
    | .quote _ code => some code
    | _ => none

def popCallable (operator : String) : Exec Value :=
  popAs operator "a quotation" fun v => if v.isCallable then some v else none

/-- An identity that nothing has yet. -/
def fresh : Exec Nat := fun m => .ok m.nextId { m with nextId := m.nextId + 1 }

def pushArray (items : List Value) : Exec Unit := do
  push (.array (← fresh) items)

/-- Changes the machine, unless the change is an error. -/
def change (f : Machine → Except RuntimeError Machine) : Exec Unit := fun m =>
  match f m with
  | .ok m => .ok () m
  | .error e => .error (.error e) m

/-- Binds a name in the active scope, unless it is a builtin. -/
def define (name : String) (v : Value) : Exec Unit := change (·.define name v)

/-- Binds a name in the active scope. -/
def put (name : String) (v : Value) : Exec Unit :=
  modify fun m => { m with scopes := m.scopes.put name v }

/-- Puts everything on the stack out of reach. -/
def forbid : Exec Unit :=
  modify fun m => { m with operands := m.operands.forbid }

/-- Adds a frame, if the limit allows it. -/
def pushFrame (frame : Frame) : Exec Unit := fun m =>
  if m.maxFrames ≤ m.frames.size then .error (.error .depthExceeded) m
  else .ok () { m with frames := m.frames.push frame }

end Exec

end Catena
