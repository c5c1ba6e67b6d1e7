import Catena.Step

set_option autoImplicit false

/-!
Runs as a host drives them. A run makes steps, waits for the operations that suspend it and goes on
with their answers. It can be cancelled: cancellation is noticed before each step and while the run
waits, where it comes before an answer, and an operation that was waited for is told if it asked for
that.
-/

namespace Catena

inductive Outcome where
  | completed
  | failed (e : LocatedError)
  | cancelled
  deriving DecidableEq, Repr

inductive Progress where
  | checkpoint
  /-- An awaited operation has answered. -/
  | resumed
  | settled (outcome : Outcome)
  /-- The host has stopped waiting for an operation, which is lost. -/
  | stuck
  deriving DecidableEq, Repr

/-- How long a host waits. -/
inductive Patience where
  | unlimited
  | upTo (milliseconds : Nat)
  /-- The run is cancelled as soon as it has to wait. -/
  | cancels
  /-- The run is cancelled on its way to the answer, even to one that is there already. -/
  | forestalls
  deriving DecidableEq, Repr

/-- What became of waiting. -/
inductive Waited where
  | reply (reply : Reply Value) (milliseconds : Nat)
  | cancelled
  | gaveUp

namespace Patience

def wait : Patience → Future Value → Waited
  | .forestalls, _ => .cancelled
  | _, .ready reply => .reply reply 0
  | _, .later 0 reply => .reply reply 0
  | .unlimited, .later milliseconds reply => .reply reply milliseconds
  | .upTo limit, .later milliseconds reply =>
    if milliseconds ≤ limit then .reply reply milliseconds else .gaveUp
  | .cancels, .later _ _ => .cancelled
  | .cancels, .never => .cancelled
  | _, .never => .gaveUp

/-- What is left after some time. -/
def after (patience : Patience) (milliseconds : Nat) : Patience :=
  match patience with
  | .upTo limit => .upTo (limit - milliseconds)
  | other => other

end Patience

structure Run where
  machine : Machine
  /-- Whether the host has asked for an end. -/
  cancelled : Bool := false
  outcome : Option Outcome := none
  /-- The operation that was being waited for when the run was cancelled. -/
  interrupted : Option String := none
  /-- The cancel actions that were carried out. -/
  told : List CancelAction := []
  /-- The time spent waiting. -/
  waited : Nat := 0

namespace Run

def start (m : Machine) (tokens : List Token) : Run := { machine := m.load tokens }

def startValue (m : Machine) (v : Value) : Run := { machine := m.loadValue v }

def cancel (r : Run) : Run := { r with cancelled := true }

def settle (r : Run) (outcome : Outcome) : Progress × Run :=
  (.settled outcome, { r with outcome := some outcome })

def settleCancelled (r : Run) : Progress × Run :=
  settle { r with machine := r.machine.abort } .cancelled

/-- Cancels a run that waits for an operation, which is told. -/
def interrupt (r : Run) (pending : Pending Value) : Progress × Run :=
  match pending.cancel with
  | some action =>
    settleCancelled
      { r with interrupted := some pending.label, told := action :: r.told, cancelled := true }
  | none => settleCancelled { r with cancelled := true }

/-- Goes on with the answer of an operation. -/
def answer (r : Run) (reply : Reply Value) : Progress × Run :=
  let machine :=
    match reply with
    | .value v => r.machine.resume (some v)
    | .nothing => r.machine.resume none
    | .failure e => r.machine.failPending e
  (.resumed, { r with machine })

/-- Waits for an operation that has been taken out of the machine. -/
def await (r : Run) (patience : Patience) (pending : Pending Value) : Progress × Run :=
  match patience.wait pending.future with
  | .reply reply milliseconds => answer { r with waited := r.waited + milliseconds } reply
  | .cancelled => r.interrupt pending
  | .gaveUp => (.stuck, r)

/-- Waits for the operation that the machine is suspended on; without one it simply goes on. -/
def awaitPending (r : Run) (patience : Patience) : Progress × Run :=
  match r.machine.pending with
  | some pending => await { r with machine := { r.machine with pending := none } } patience pending
  | none => (.resumed, { r with machine := r.machine.resume none })

def step (patience : Patience) (r : Run) : Progress × Run :=
  match r.outcome with
  | some outcome => (.settled outcome, r)
  | none =>
    if r.cancelled then r.settleCancelled
    else if r.machine.pending.isSome then r.awaitPending patience
    else
      match r.machine.step with
      | (.checkpoint, machine) => (.checkpoint, { r with machine })
      | (.suspended, machine) => awaitPending { r with machine } patience
      | (.done, machine) => settle { r with machine } .completed
      | (.failed e, machine) => settle { r with machine } (.failed e)

/-- A run that is being finished lets others have a turn each time it has made this many steps. -/
def turn : Nat := 256

/-- Makes steps until the run is settled, at most `limit` of them. An impatient host cancels the run
at the end of its first turn. Nothing is answered if the host stopped waiting. -/
def finishFrom (patience : Patience) : (limit made : Nat) → Run → Option Outcome × Run
  | 0, _, r => (none, r)
  | limit + 1, made, r =>
    match r.step patience with
    | (.settled outcome, r') => (some outcome, r')
    | (.stuck, r') => (none, r')
    | (_, r') =>
      let yields := (made + 1) % turn = 0
      let next := if yields ∧ patience = .cancels then r'.cancel else r'
      finishFrom (patience.after (r'.waited - r.waited)) limit (made + 1) next

def finish (patience : Patience) (limit : Nat) (r : Run) : Option Outcome × Run :=
  finishFrom patience limit 0 r

end Run

end Catena
