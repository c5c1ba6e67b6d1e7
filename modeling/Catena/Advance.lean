import Catena.Execute

set_option autoImplicit false

/-!
Dealing with the topmost frame. Running a token or an element of a quotation ends at a checkpoint;
everything else that happens to frames (a closure returns, a loop starts over, a test is looked at)
is internal and happens on the way to the next checkpoint.
-/

namespace Catena

/-- Whether dealing with a frame ended at a checkpoint. -/
inductive Tick where
  | internal
  | checkpoint
  deriving DecidableEq, Repr

namespace Exec

def setFrames (frames : Stack Frame) : Exec Unit :=
  modify fun m => { m with frames }

/-- Checks that a closure has left what it declares. -/
def checkLeft (c : Closure Value) (floor : Nat) : Exec Unit :=
  match c.signature with
  | some signature => do ofExcept ((← get).checkReturns signature floor)
  | none => pure ()

/-- Leaves a closure that has returned. -/
def leaveCall (c : Closure Value) (floor : Nat) (below : Stack Frame) : Exec Unit := do
  checkLeft c floor
  modify fun m =>
    { m with frames := below, scopes := m.scopes.leave, operands := m.operands.allow floor }

/-- Writes back the one value that a field's update has left above its floor. -/
def leaveUpdate (items : List Value) (field : Field) (types : Scope) (floor : Nat)
    (below : Stack Frame) : Exec Unit := do
  let m ← get
  set { m with frames := below, operands := m.operands.allow floor }
  if m.operands.count - floor = 1 then writeField items field types (← pop)
  else fail (.updateCount field.owner field.name (m.operands.count - floor))

/-- Pushes the next element of an iteration, and its position if it is wanted. -/
def pushElement (source : Source) (index : Nat) (withIndex : Bool) : Exec Unit := do
  push (source.element index)
  if withIndex then push (.int (Int64.ofNat index))

/-- Looks at what a test has left. -/
def checkCondition (action : Value) (rest : List (Value × Value)) (below : Stack Frame) :
    Exec Unit := do
  match ← pop with
  | .bool true =>
    setFrames below
    invoke action
  | .bool false => setFrames (below.push (.condTest rest))
  | other => fail (.conditionMismatch other)

/-- Begins a round of a loop. Without code to run, the round is a checkpoint of its own. -/
def runBody (body : List Value) : Exec Tick := do
  if body.isEmpty then pure .checkpoint
  else
    pushFrame (.body body)
    pure .internal

/-- Deals with the topmost frame, which stands on `below`. -/
def advance (frame : Frame) (below : Stack Frame) : Exec Tick :=
  match frame with
  | .program [] => do
    setFrames below
    pure .internal
  | .program (t :: rest) => do
    setFrames (below.push (.program rest))
    token t
    pure .checkpoint
  | .body [] => do
    setFrames below
    pure .internal
  | .body (v :: rest) => do
    setFrames (below.push (.body rest))
    value v
    pure .checkpoint
  | .call c floor => do
    leaveCall c floor below
    pure .internal
  | .loop body => runBody body
  | .iterate source index withIndex body => do
    if index < source.length then
      setFrames (below.push (.iterate source (index + 1) withIndex body))
      pushElement source index withIndex
      runBody body
    else
      setFrames below
      pure .internal
  | .condTest [] => do
    setFrames below
    pure .internal
  | .condTest ((test, action) :: rest) => do
    setFrames (below.push (.condCheck action rest))
    invoke test
    pure .internal
  | .condCheck action rest => do
    checkCondition action rest below
    pure .internal
  | .attempt _ => do
    setFrames below
    pure .internal
  | .update items field types floor => do
    leaveUpdate items field types floor below
    pure .internal

end Exec

end Catena
