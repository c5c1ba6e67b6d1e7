import Catena.Value.Basic

set_option autoImplicit false

/-!
The builtins a machine knows. They win over names bound by the program.
-/

namespace Catena

abbrev Registry := Bindings (Builtin Value)

namespace Registry

def register (r : Registry) (name : String) (action : BuiltinAction Value) : Registry :=
  r.insert name ⟨name, action⟩

/-- The operators of the language. -/
def standard : Registry :=
  Primitive.all.foldl (fun r p => r.register p.name (.primitive p)) .empty

end Registry

end Catena
