import Catena.Binding
import Catena.DataType
import Catena.Operator.Control

set_option autoImplicit false

/-!
Operators that make closures and bind names, and the operations that data declarations bind.
-/

namespace Catena

/-- Binds the operations of a declaration, unless one of them has the name of a builtin. -/
def Machine.declare (m : Machine) (decl : Declaration) : Except RuntimeError Machine :=
  let operations := decl.operations m.scopes.active m.origin
  match operations.find? fun d => m.isBuiltin d.name with
  | some d => .error (.shadowsBuiltin decl.name d.name)
  | none =>
    let active := m.scopes.active.insertAll (Declaration.entries m.origin operations)
    .ok { m with scopes := { m.scopes with active } }

namespace Exec

/-- A parameter list, if there is one on top of the stack. -/
def popSignature? : Exec (Option Signature) := do
  match (← get).operands.peek 0 with
  | .ok (.signature s) =>
    let _ ← pop
    pure (some s)
  | _ => pure none

/-- A closure over the active scope. -/
def close (name : Option String) (body : List Value) (signature : Option Signature) :
    Exec Value := do
  let id ← fresh
  return .closure ⟨id, name, body, signature, (← get).scopes.active⟩

def function : Exec Unit := do
  let body ← popBody Primitive.function.name
  let signature ← popSignature?
  let name ← popName Primitive.function.name
  define name (← close (some name) body signature)

def lambda : Exec Unit := do
  let body ← popBody Primitive.lambda.name
  let signature ← popSignature?
  push (← close none body signature)

/-- A function that runs the first action whose test holds. -/
def condFunction : Exec Unit := do
  let (pairs, _) ← popPairs Primitive.condFunction.name
  let signature ← popSignature?
  let name ← popName Primitive.condFunction.name
  let cond : Value := .op (.builtin ⟨Primitive.cond.name, .primitive .cond⟩) (← get).origin
  define name (← close (some name) [pairs, cond] signature)

def defineName : Exec Unit := do
  let name ← popName Primitive.define.name
  define name (← pop)

def dataDef : Exec Unit := do
  let body ← pop
  let name ← popName Primitive.dataDef.name
  let decl ← ofExcept (Declaration.read name body)
  change (·.declare decl)

/-! ### Operations on instances -/

/-- The parts of an instance and its value of a field. -/
def popInstance (operator : String) (field : Field) : Exec (List Value × Value) :=
  popAs operator field.owner fun v =>
    match v, v.instanceType? == some field.owner with
    | .array _ items, true => items[field.index]?.map fun current => (items, current)
    | _, _ => none

/-- A field without a type takes every value. -/
def checkField (field : Field) (types : Scope) (v : Value) : Exec Unit := do
  match field.type with
  | none => pure ()
  | some type =>
    if ← ofExcept (checkType types (← get).scopes.active type v) then pure ()
    else fail (.fieldMismatch field type v)

/-- Pushes an instance whose field has been changed, if the new value has the field's type. -/
def writeField (items : List Value) (field : Field) (types : Scope) (v : Value) : Exec Unit := do
  checkField field types v
  pushArray (items.set field.index v)

/-- Starts computing a new value for a field: the callable is invoked on a stack that shows only the
old one. -/
def beginUpdate (operator : String) (field : Field) (types : Scope) : Exec (Option Value) := do
  let callable ← popCallable operator
  let found ← popInstance operator field
  pushFrame (.update found.1 field types (← get).operands.count)
  forbid
  push found.2
  pure (some callable)

end Exec

end Catena
