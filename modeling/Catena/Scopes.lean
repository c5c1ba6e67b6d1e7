import Catena.Value.Basic

set_option autoImplicit false

/-!
Scopes. Only the active scope is visible: a running closure sees the names it has captured and its
own, never those of its caller, which wait among the saved scopes.
-/

namespace Catena

structure Scopes where
  active : Scope
  /-- The scopes of the callers, the nearest first. -/
  saved : List Scope

namespace Scopes

def empty : Scopes := ⟨.empty, []⟩

instance : Inhabited Scopes := ⟨empty⟩

def get? (s : Scopes) (name : String) : Option Value := s.active.get? name

def put (s : Scopes) (name : String) (v : Value) : Scopes :=
  { s with active := s.active.insert name v }

def enter (s : Scopes) (scope : Scope) : Scopes := ⟨scope, s.active :: s.saved⟩

/-- Goes back to the nearest caller, or to an empty scope if there is none. -/
def leave (s : Scopes) : Scopes :=
  match s.saved with
  | [] => empty
  | scope :: rest => ⟨scope, rest⟩

def depth (s : Scopes) : Nat := s.saved.length

@[simp] theorem leave_enter (s : Scopes) (scope : Scope) : (s.enter scope).leave = s := rfl

@[simp] theorem saved_put (s : Scopes) (name : String) (v : Value) :
    (s.put name v).saved = s.saved := rfl

end Scopes

end Catena
