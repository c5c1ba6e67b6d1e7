import Catena.Rank

set_option autoImplicit false

/-!
Steps. A step runs one token of the program or one element of a quotation, however deeply nested,
and ends at a checkpoint. Signals raised by one step are dealt with at the start of the next: a
break leaves the nearest loop, a tail call replaces the running closure, an error goes to the
nearest attempt or ends the run.
-/

namespace Catena

inductive Step where
  | checkpoint
  /-- The machine waits for an operation outside. -/
  | suspended
  | done
  | failed (e : LocatedError)
  deriving DecidableEq, Repr

def Frame.attemptHeight? : Frame → Option Nat
  | .attempt height => some height
  | _ => none

def Frame.callFloor? : Frame → Option Nat
  | .call _ floor => some floor
  | _ => none

/-- Where a break stops looking: at a loop, which it leaves, or at the edge of the activation, which
it may not cross. -/
def Frame.loopEdge? : Frame → Option Bool
  | .loop _ | .iterate .. => some true
  | .call .. | .program _ => some false
  | _ => none

namespace Machine

def checkpoint (m : Machine) : Step × Machine :=
  (.checkpoint, { m with checkpoints := m.checkpoints + 1 })

/-- Gives up frames and what they had set up, the topmost first. -/
def releaseAll (m : Machine) (frames : List Frame) : Machine :=
  frames.foldl release m

/-- Hands an error to the nearest attempt, which pushes it; without one the run has failed. -/
def raiseError (m : Machine) (e : LocatedError) : Step × Machine :=
  match m.frames.split? Frame.attemptHeight? with
  | some (above, height, below) =>
    let released := m.releaseAll above
    checkpoint
      { released with
        frames := below
        operands := (released.operands.truncate height).push (.error e) }
  | none => (.failed e, m.abort)

def fail (m : Machine) (e : RuntimeError) : Step × Machine :=
  m.raiseError (m.locate e)

/-- What a signal leaves for the next step to deal with. Errors are dealt with at once. -/
def interrupt (m : Machine) : Signal → Step × Machine
  | .error e => m.fail e
  | .break => checkpoint { m with control := .break }
  | .tailCall target => checkpoint { m with control := .tailCall target }
  | .await pending => checkpoint { m with control := .suspend, pending := some pending }

/-- All frames are gone. Containers must not be open at the end. -/
def finish (m : Machine) : Step × Machine :=
  if m.isCollecting then m.fail .unclosed else (.done, m)

/-- Deals with frames up to the next checkpoint. -/
def proceed (m : Machine) : Step × Machine :=
  match _top : m.frames.pop? with
  | none => m.finish
  | some (frame, below) =>
    match _ran : Exec.advance frame below m with
    | .ok .internal m' => m'.proceed
    | .ok .checkpoint m' => m'.checkpoint
    | .error signal m' => m'.interrupt signal
termination_by m.rank
decreasing_by exact Exec.rank_of_advance _top _ran

end Machine

namespace Exec

/-- Leaves the nearest loop of the running activation. -/
def leaveLoop : Exec Unit := fun m =>
  match m.frames.split? Frame.loopEdge? with
  | some (above, true, below) => .ok () { m.releaseAll above with frames := below }
  | some (above, false, _) =>
    .error (.error .breakOutsideLoop)
      { m.releaseAll above with frames := m.frames.drop above.length }
  | none => .error (.error .breakOutsideLoop) { m.releaseAll m.frames.toList with frames := .empty }

/-- Puts a closure in the place of the running one, on the same floor. -/
def replaceCall (target : Closure Value) : Exec Unit := do
  let m ← get
  match m.frames.split? Frame.callFloor? with
  | none => fail .tailCallOutsideFunction
  | some (above, floor, below) =>
    set { m.releaseAll above with frames := m.frames.drop above.length }
    leaveScope
    enterScope target.activation
    bindParameters target
    setFrames ((below.push (.call target floor)).push (.body target.body))

end Exec

namespace Machine

/-- Goes on after a signal has been dealt with. -/
def proceedAfter : EStateM.Result Signal Machine Unit → Step × Machine
  | .ok _ m => m.proceed
  | .error signal m => m.interrupt signal

/-- Runs up to the next checkpoint. -/
def step (m : Machine) : Step × Machine :=
  match m.control with
  | .none => m.proceed
  | .suspend => (.suspended, m)
  | .throw e => raiseError { m with control := .none } e
  | .break => proceedAfter (Exec.leaveLoop { m with control := .none })
  | .tailCall target => proceedAfter (Exec.replaceCall target { m with control := .none })

/-- Makes steps until one does not end at a checkpoint, `limit` of them at most; `none` if all of
them did. -/
def run : (limit : Nat) → Machine → Option Step × Machine
  | 0, m => (none, m)
  | limit + 1, m =>
    match m.step with
    | (.checkpoint, m') => m'.run limit
    | (result, m') => (some result, m')

end Machine

end Catena
