import Catena.Arguments
import Catena.Config
import Catena.Json
import Catena.Run
import Catena.Token.Scan

set_option autoImplicit false

/-!
What the command line does. Nothing is printed before the configuration has been loaded.
-/

namespace Catena

structure Response where
  output : String := ""
  /-- Why the command failed, the outermost reason first. -/
  failure : List String := []
  /-- How long the program slept. -/
  waited : Nat := 0
  deriving DecidableEq, Repr

namespace Response

def fail (reasons : List String) : Response := { failure := reasons }

/-- The line that reports a failure. -/
def report? (r : Response) : Option String :=
  if r.failure.isEmpty then none else some ("Error: " ++ ": ".intercalate r.failure)

end Response

private def lines (texts : List String) : String :=
  String.join (texts.map (· ++ "\n"))

/-- Tokens with their places, one on each line, or as JSON. -/
def listTokens (json : Bool) (tokens : List Token) : String :=
  if json then lines [(Json.array (tokens.map Token.toJson)).pretty]
  else lines (tokens.map fun t => t.origin.display ++ "\t" ++ t.lexeme.listing)

/-- The operands from the bottom up, one on each line, or as JSON. -/
def listOperands (json : Bool) (operands : List Value) : String :=
  if json then lines [(Json.array (operands.map Value.toJson)).pretty]
  else lines (operands.map Value.display)

/-- More steps than any program makes that comes to an end in practice. -/
def stepLimit : Nat := 1000000000000000

def runTokens (config : Config) (file : String) (json : Bool) (tokens : List Token) : Response :=
  let machine : Machine :=
    { Machine.new Registry.standard with maxFrames := config.maxFrames, report := some .empty }
  let (outcome, run) := (Run.start machine tokens).finish .unlimited stepLimit
  let ended : Response := { waited := run.waited }
  match outcome with
  | some (.failed e) => { ended with failure := [file, e.display] }
  | some .completed =>
    let report := run.machine.report.getD .empty
    let failure :=
      if report.failed = 0 then []
      else [s!"{report.failed} of {report.total} assertions failed"]
    { ended with output := listOperands json run.machine.operands.toList, failure }
  | some .cancelled => { ended with failure := ["run cancelled"] }
  | none => { ended with failure := ["run cancelled"] }

def Arguments.respond (a : Arguments) (config : Config) (source : Except ReadError String) :
    Response :=
  match source with
  | .error e => .fail [s!"failed to read {a.file}", e.message]
  | .ok text =>
    match tokenize text with
    | .error e => .fail [s!"failed to tokenize {a.file}", e.message]
    | .ok tokens =>
      match a.command with
      | .run => runTokens config a.file a.json tokens
      | .tokens => { output := listTokens a.json tokens }

/-- Carries out a command with the files and variables there are. -/
def Arguments.perform {m : Type → Type} [Monad m] (read : String → m (Except ReadError String))
    (environment : List (String × String)) (a : Arguments) : m Response := do
  match ← Config.load read environment { file := a.config } with
  | .error e => pure (.fail (e.message :: e.cause?.toList))
  | .ok config => pure (a.respond config (← read a.file))

end Catena
