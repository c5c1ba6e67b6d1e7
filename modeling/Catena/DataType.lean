import Catena.Typing

set_option autoImplicit false

/-!
Data declarations. A struct `Point` with fields `x` and `y` stands for a predicate `point?`, a
constructor `point` and, per field, `point-x-set`, `point-x-do` and `point-x`. A union declares its
variants as structs and adds a predicate of its own. All predicates of one declaration are known to
all its operations, whatever the order of the variants.
-/

namespace Catena

structure Struct where
  name : String
  fields : Signature
  deriving DecidableEq, Repr

inductive Declaration where
  | struct (s : Struct)
  | union (name : String) (variants : List Struct)
  deriving Repr

namespace Declaration

def name : Declaration → String
  | .struct s => s.name
  | .union name _ => name

def structs : Declaration → List Struct
  | .struct s => [s]
  | .union _ variants => variants

/-! ### Reading a declaration -/

def checkTypeName (type : String) : Except RuntimeError Unit :=
  match type.toList with
  | c :: _ => if Text.isUppercase c then .ok () else .error (.uncapitalised type)
  | [] => .error (.uncapitalised type)

/-- The first name that occurs a second time. -/
def repeated? (seen : List String) : List String → Option String
  | [] => none
  | name :: rest => if name ∈ seen then some name else repeated? (name :: seen) rest

def checkFields (type : String) (fields : Signature) : Except RuntimeError Unit :=
  if fields.returns.isSome then .error (.fieldsReturn type)
  else
    match repeated? [] (fields.params.map Param.name) with
    | some field => .error (.repeatedField type field)
    | none => .ok ()

def readFields (type : String) : Value → Except RuntimeError Struct
  | .signature fields => do
    checkFields type fields
    pure ⟨type, fields⟩
  | other =>
    .error (.notAFieldList type (if other.isQuotation then "a closure" else other.typeName))

/-- Reads names and field lists of a union by turns; `seen` are the names taken so far. -/
def readVariants (union : String) (seen : List String) :
    List Value → Except RuntimeError (List Struct)
  | [] => .ok []
  | .sym variant :: fields :: rest => do
    checkTypeName variant
    if variant ∈ seen then throw (.repeatedVariant union variant)
    let struct ← readFields variant fields
    let variants ← readVariants union (variant :: seen) rest
    pure (struct :: variants)
  | [_] => .error (.unpairedVariants union)
  | other :: _ :: _ => .error (.notAVariantName union other)

def read (name : String) (body : Value) : Except RuntimeError Declaration := do
  checkTypeName name
  match body with
  | .array _ items =>
    if items.isEmpty || items.length % 2 != 0 then throw (.unpairedVariants name)
    else return .union name (← readVariants name [name] items)
  | other => return .struct (← readFields name other)

/-! ### The operations it stands for -/

def predicates : Declaration → List (DataOp Value)
  | .struct s => [⟨predicateName s.name, .isInstance s.name⟩]
  | .union name variants =>
    variants.map (fun s => ⟨predicateName s.name, .isInstance s.name⟩) ++
      [⟨predicateName name, .isVariant (variants.map Struct.name)⟩]

/-- The operations on a field, given the name of the struct's constructor. -/
def accessors (types : Scope) (base : String) (field : Field) : List (DataOp Value) :=
  let getter := s!"{base}-{field.name}"
  [⟨getter ++ "-set", .set field types⟩, ⟨getter ++ "-do", .update field types⟩,
   ⟨getter, .get field⟩]

def fieldsFrom (type : String) (index : Nat) : List Param → List Field
  | [] => []
  | p :: params => ⟨type, p.name, index, p.type⟩ :: fieldsFrom type (index + 1) params

/-- The constructor of a struct and the operations on its fields. -/
def members (types : Scope) (s : Struct) : List (DataOp Value) :=
  let base := Text.lowercase s.name
  ⟨base, .construct s.name s.fields types⟩ ::
    (fieldsFrom s.name firstField s.fields.params).flatMap (accessors types base)

/-- Operations as they are bound to their names. -/
def entries (origin : Origin) (ops : List (DataOp Value)) : List (String × Value) :=
  ops.map fun d => (d.name, .op (.data d) origin)

/-- All operations of a declaration made in the scope `active`, in the order in which they are
bound. -/
def operations (decl : Declaration) (active : Scope) (origin : Origin) : List (DataOp Value) :=
  let types := active.insertAll (entries origin decl.predicates)
  decl.predicates ++ decl.structs.flatMap (members types)

end Declaration

end Catena
