import Catena.Value.Basic

set_option autoImplicit false

/-!
Outcomes of assertions. An assertion never fails a run; it is counted, and those that failed are
kept.
-/

namespace Catena

structure Failure where
  kind : AssertionKind
  operands : List Value
  origin : Origin

structure Report where
  passed : Nat := 0
  /-- The latest first. -/
  failures : List Failure := []

namespace Report

def empty : Report := {}

def failed (r : Report) : Nat := r.failures.length

def total (r : Report) : Nat := r.passed + r.failed

def record (r : Report) (passed : Bool) (failure : Failure) : Report :=
  if passed then { r with passed := r.passed + 1 }
  else { r with failures := failure :: r.failures }

end Report

end Catena
