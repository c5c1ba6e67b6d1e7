import Catena.Binding

set_option autoImplicit false

/-!
Entering closures. A closure runs in its own scope and above a floor of its own; an ordinary call
puts it on top of the work at hand, a tail call puts it in the place of the running closure.
-/

namespace Catena

namespace Exec

/-- Binds the parameters a closure declares. -/
def bindParameters (c : Closure Value) : Exec Unit :=
  match c.signature with
  | some signature => bind signature
  | none => pure ()

def enterScope (scope : Scope) : Exec Unit :=
  modify fun m => { m with scopes := m.scopes.enter scope }

def leaveScope : Exec Unit :=
  modify fun m => { m with scopes := m.scopes.leave }

/-- Sets up a closure whose parameters are bound: what is now on the stack is out of its reach. -/
def beginBody (c : Closure Value) : Exec Unit :=
  modify fun m =>
    { m with
      operands := m.operands.forbid
      frames := (m.frames.push (.call c m.operands.count)).push (.body c.body) }

/-- Calls a closure. There must be room for both of its frames; if its parameters do not bind, its
scope is left again. -/
def enter (c : Closure Value) : Exec Unit := do
  let m ← get
  if m.maxFrames < m.frames.size + 2 then fail .depthExceeded
  else
    enterScope c.activation
    try bindParameters c
    catch signal =>
      leaveScope
      throw signal
    beginBody c

end Exec

end Catena
