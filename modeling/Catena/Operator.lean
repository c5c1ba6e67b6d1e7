import Catena.Operator.Definition
import Catena.Operator.Operand

set_option autoImplicit false

/-!
What every operation does. Some end by invoking a value; they answer that value instead of invoking
it themselves.
-/

namespace Catena.Exec

/-- An action that hands over to nothing. -/
def plain (x : Exec Unit) : Exec (Option Value) := do
  x
  pure none

def primitive : Primitive → Exec (Option Value)
  | .ifElse => ifElse
  | .call => some <$> popCallable Primitive.call.name
  | .attempt => attempt
  | .cond => plain cond
  | .function => plain function
  | .lambda => plain lambda
  | .condFunction => plain condFunction
  | .loop => plain loop
  | .iterate withIndex => plain (iterate withIndex)
  | .break => throw .break
  | .breakIf => plain breakIf
  | .tailCall => plain tailCall
  | .define => plain defineName
  | .dataDef => plain dataDef
  | .dup => plain dup
  | .pop => plain drop
  | .swap => plain swap
  | .copySecond => plain copySecond
  | .rot => plain rot
  | .clear => plain clear
  | .depth => plain depth
  | .arithmetic op => plain (binary op.apply)
  | .neg => plain (unary negate)
  | .equal => plain (binary fun a b => .ok (.bool (a == b)))
  | .notEqual => plain (binary fun a b => .ok (.bool (a != b)))
  | .compare c => plain (binary c.apply)
  | .not => plain do push (.bool (!(← popBool Primitive.not.name)))
  | .and => plain (logical .and (· && ·))
  | .or => plain (logical .or (· || ·))
  | .append => plain append
  | .length => plain (unary Value.length)
  | .nth => plain nth
  | .concat => plain concat
  | .raise => plain raise
  | .isError => plain (unary fun v => .ok (.bool v.isError))
  | .errorMessage => plain (unary Value.errorMessage)
  | .sleep => plain sleep
  | .assertion kind => plain (assertion kind)

def dataOp (d : DataOp Value) : Exec (Option Value) :=
  match d.action with
  | .construct type fields types => plain do
    let bound ← collect fields types
    pushArray (.sym instanceTag :: .sym type :: bound.map Prod.snd)
  | .get field => plain do
    let (_, current) ← popInstance d.name field
    push current
  | .set field types => plain do
    let v ← pop
    let (items, _) ← popInstance d.name field
    writeField items field types v
  | .update field types => beginUpdate d.name field types
  | action => plain (unary fun v => .ok (.bool ((action.test? v).getD false)))

def deliver : Reply Value → Exec Unit
  | .value v => push v
  | .nothing => pure ()
  | .failure e => fail e

def builtin (b : Builtin Value) : Exec (Option Value) :=
  match b.action with
  | .primitive p => primitive p
  | .reply r => plain (deliver r)
  | .await pending => throw (.await pending)

/-- Carries out an operation, up to the value that it invokes in the end. -/
def operation : Operation Value → Exec (Option Value)
  | .builtin b => builtin b
  | .data d => dataOp d

end Catena.Exec
