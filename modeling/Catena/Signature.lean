set_option autoImplicit false

/-!
Parameter lists: the names a closure or a struct takes, their types, and the types it returns.
-/

namespace Catena

structure Param where
  name : String
  type : Option String
  deriving DecidableEq, Repr

structure Signature where
  params : List Param
  /-- Without a list of types the results are not checked. -/
  returns : Option (List String)
  deriving DecidableEq, Repr

namespace Signature

def empty : Signature := ⟨[], none⟩

def arity (s : Signature) : Nat := s.params.length

end Signature

def Param.display (p : Param) : String :=
  match p.type with
  | some type => s!"{p.name} :{type}"
  | none => p.name

def Signature.display (s : Signature) : String :=
  let returns :=
    match s.returns with
    | some types => " ->" ++ String.join (types.map fun type => s!" :{type}")
    | none => ""
  "(" ++ ", ".intercalate (s.params.map Param.display) ++ returns ++ ")"

end Catena
