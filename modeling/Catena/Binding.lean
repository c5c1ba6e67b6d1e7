import Catena.Machine
import Catena.Typing

set_option autoImplicit false

/-!
Arguments and results. Arguments are taken off the stack all at once, then checked one by one in the
order of the parameters; an argument that does not fit leaves those before it bound.
-/

namespace Catena

namespace Exec

/-- Takes `n` operands, the lowest first. -/
def popMany : Nat → Exec (List Value)
  | 0 => pure []
  | n + 1 => do
    let v ← pop
    let below ← popMany n
    pure (below ++ [v])

/-- Takes the arguments of an operation, if there are enough of them. -/
def takeArguments (wanted : Nat) : Exec (List Value) := do
  let available := (← get).operands.accessible
  if available < wanted then fail (.tooFewArguments wanted available)
  else popMany wanted

/-- Checks arguments against a scope of types and pairs them with the names of their parameters. -/
def collectInto (types : Scope) : List Param → List Value → Exec (List (String × Value))
  | p :: params, v :: values => do
    ofExcept (p.check types (← get).scopes.active v)
    let rest ← collectInto types params values
    pure ((p.name, v) :: rest)
  | _, _ => pure []

def collect (signature : Signature) (types : Scope) : Exec (List (String × Value)) := do
  collectInto types signature.params (← takeArguments signature.arity)

/-- Checks arguments in the active scope and binds each there before the next is checked. -/
def bindInto : List Param → List Value → Exec Unit
  | p :: params, v :: values => do
    let active := (← get).scopes.active
    ofExcept (p.check active active v)
    put p.name v
    bindInto params values
  | _, _ => pure ()

def bind (signature : Signature) : Exec Unit := do
  bindInto signature.params (← takeArguments signature.arity)

/-! An argument is refused, and that is the end, or it is accepted and the next one is checked. -/

section

variable {m : Machine} {types : Scope} {p : Param} {params : List Param} {v : Value}
  {values : List Value} {e : RuntimeError}

theorem collectInto_cons : collectInto types (p :: params) (v :: values) m =
    (do
      ofExcept (p.check types m.scopes.active v)
      let rest ← collectInto types params values
      pure ((p.name, v) :: rest) : Exec _) m := rfl

theorem collectInto_of_refused (refused : p.check types m.scopes.active v = .error e) :
    collectInto types (p :: params) (v :: values) m = .error (.error e) m := by
  rw [collectInto_cons, refused]
  rfl

theorem collectInto_of_accepted (accepted : p.check types m.scopes.active v = .ok ()) :
    collectInto types (p :: params) (v :: values) m =
      (collectInto types params values >>= fun rest => pure ((p.name, v) :: rest)) m := by
  rw [collectInto_cons, accepted]
  rfl

theorem bindInto_cons : bindInto (p :: params) (v :: values) m =
    (do
      ofExcept (p.check m.scopes.active m.scopes.active v)
      put p.name v
      bindInto params values : Exec _) m := rfl

theorem bindInto_of_refused (refused : p.check m.scopes.active m.scopes.active v = .error e) :
    bindInto (p :: params) (v :: values) m = .error (.error e) m := by
  rw [bindInto_cons, refused]
  rfl

theorem bindInto_of_accepted (accepted : p.check m.scopes.active m.scopes.active v = .ok ()) :
    bindInto (p :: params) (v :: values) m =
      bindInto params values { m with scopes := m.scopes.put p.name v } := by
  rw [bindInto_cons, accepted]
  rfl

end

end Exec

/-- Checks results against the declared types, counting from `position`. -/
def checkResults (active : Scope) : (position : Nat) → List String → List Value →
    Except RuntimeError Unit
  | position, type :: types, v :: values =>
    match checkType active active type v with
    | .ok true => checkResults active (position + 1) types values
    | .ok false => .error (.returnMismatch position type v)
    | .error e => .error e
  | _, _, _ => .ok ()

/-- Checks that what lies above a floor is what a signature declares to return. -/
def Machine.checkReturns (m : Machine) (signature : Signature) (floor : Nat) :
    Except RuntimeError Unit :=
  match signature.returns with
  | none => .ok ()
  | some types =>
    let produced := m.operands.count - floor
    if produced < types.length then .error (.tooFewReturns types.length produced)
    else if types.length < produced then .error (.tooManyReturns types.length produced)
    else checkResults m.scopes.active 1 types (m.operands.valuesFrom floor)

end Catena
