import Catena.Response

set_option autoImplicit false

/-!
The command line itself: it hands files, variables and arguments over and prints the answer.
-/

open Catena

private def usage : String :=
  "Usage: cinder [--config <CONFIG>] <run|tokens> <FILE> [--json]"

private def readSource (path : String) : IO (Except ReadError String) := do
  try
    pure (.ok (← IO.FS.readFile path))
  catch e =>
    match e with
    | .inappropriateType _ code _ =>
      pure (.error (if code = 20 then .notFolder else .isFolder))
    | .invalidArgument _ 36 _ => pure (.error .longName)
    | _ => pure (.error .missing)

/-- The variables that the configuration may depend on. -/
private def variableNames : List String :=
  [Config.fileVariable, "CINDER_LIMITS", "CINDER_LIMITS__MAX_FRAMES", "CINDER_TRACE",
    "CINDER_TRACE__CHECKPOINTS"]

private def readVariables : IO (List (String × String)) :=
  variableNames.filterMapM fun name => do
    pure ((← IO.getEnv name).map fun value => (name, value))

def main (arguments : List String) : IO UInt32 := do
  match Arguments.read arguments with
  | .error .help =>
    IO.println usage
    pure 0
  | .error _ =>
    IO.eprintln usage
    pure 2
  | .ok a =>
    let response ← a.perform readSource (← readVariables)
    IO.sleep (min response.waited 4294967295).toUInt32
    IO.print response.output
    match response.report? with
    | some line =>
      IO.eprintln line
      pure 1
    | none => pure 0
