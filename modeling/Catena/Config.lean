import Catena.Files
import Catena.Setting.Path
import Catena.Toml.Read

set_option autoImplicit false

/-!
The configuration of the command line. It is put together from several places: what the caller asks
for wins over environment variables, these over a configuration file, and that over the defaults.
Settings that nobody knows are ignored.
-/

namespace Catena

structure Config where
  /-- How many frames a machine may have. -/
  maxFrames : Nat := 100000
  /-- Whether checkpoints are traced. -/
  traceCheckpoints : Bool := false
  deriving DecidableEq, Repr

inductive ConfigError where
  /-- A file that was asked for is not there. -/
  | missing (file : String)
  /-- A file is malformed; it has a name if it was asked for. -/
  | malformed (file : Option String)
  /-- Something of the wrong kind, with the key it has and the place it comes from. -/
  | invalid (mismatch : Mismatch) (key place : Option String)
  | noFrames
  deriving DecidableEq, Repr

namespace ConfigError

def message : ConfigError → String
  | .missing file => s!"failed to load config file {file}"
  | .malformed (some file) => s!"failed to load config file {file}"
  | .malformed none => "failed to load configuration"
  | .invalid .. => "invalid configuration"
  | .noFrames => "limits.max_frames must be at least 1"

/-- What lies behind an error. -/
def cause? : ConfigError → Option String
  | .missing file => some s!"configuration file \"{file}\" not found"
  | .invalid mismatch key place =>
    let subject := (key.map fun key => s!" for key `{key}`").getD ""
    let origin := (place.map fun place => s!" in {place}").getD ""
    some s!"invalid type: {mismatch.found}, expected {mismatch.expected}{subject}{origin}"
  | .malformed _ => none
  | .noFrames => none

end ConfigError

namespace Config

/-- The environment variable that names a configuration file. -/
def fileVariable : String := "CINDER_CONFIG_PATH"

/-- How the names of environment variables that hold settings begin, in lower case. -/
def variableStart : String := "cinder_"

/-- The configuration file that is used if none is asked for. -/
def defaultFile : String := "cinder"

/-- The ending that the name of a file may leave out. -/
def fileEnding : String := ".toml"

/-- The only setting of a group of settings. -/
structure Group where
  name : String
  field : String
  /-- What complaints call the group. -/
  title : String

namespace Group

def limits : Group := ⟨"limits", "max_frames", "struct LimitsConfig"⟩

def trace : Group := ⟨"trace", "checkpoints", "struct TraceConfig"⟩

def put (g : Group) (value : Scalar) (tree : Setting) : Setting :=
  Setting.putAt (.scalar none value) [.name g.name, .name g.field] tree

/-- The setting of the group and its key. A list holds the settings of a group in their order. -/
def find? (g : Group) (tree : Setting) : Except ConfigError (Option (Setting × String)) :=
  match tree.child? g.name with
  | none => .ok none
  | some (.table _ entries) =>
    .ok ((entries.get? g.field).map fun s => (s, s!"{g.name}.{g.field}"))
  | some (.list _ items) => .ok (items.head?.map fun s => (s, s!"{g.name}[0]"))
  | some other => .error (.invalid ⟨other.describe, g.title⟩ none none)

/-- The setting of the group as what it counts for, or the default. -/
def read {α : Type} (g : Group) (convert : Setting → Except Mismatch α) (default : α)
    (tree : Setting) : Except ConfigError α := do
  match ← g.find? tree with
  | none => .ok default
  | some (setting, key) =>
    match convert setting with
    | .ok a => .ok a
    | .error mismatch => .error (.invalid mismatch (some key) setting.place?)

end Group

def defaults : Setting :=
  let config : Config := {}
  Group.limits.put (.int (Int64.ofNat config.maxFrames))
    (Group.trace.put (.bool config.traceCheckpoints) Setting.emptyTable)

/-- The key of the setting that a variable holds. -/
def variableKey? (name : String) : Option String :=
  let lower := Text.lowercase name
  if lower.startsWith variableStart then
    some ((lower.drop variableStart.length).toString.replace "__" ".")
  else none

/-- The settings that environment variables hold. -/
def ofEnvironment (environment : List (String × String)) : List (String × Setting) :=
  let settings := environment.foldl (fun (settings : Bindings Setting) (name, value) =>
    match variableKey? name with
    | some key =>
      settings.insert key (.scalar (some "the environment") (Scalar.ofVariable value))
    | none => settings) .empty
  settings.entries

/-- The settings of a configuration file. -/
def ofText? (place text : String) : Option (List (String × Setting)) :=
  let text := if text.startsWith "\ufeff" then (text.drop 1).toString else text
  (Toml.read? text).map fun entries => Setting.ofEntries (some place) entries.entries

/-- What a caller asks for. -/
structure Request where
  file : Option String := none
  maxFrames : Option Nat := none
  traceCheckpoints : Option Bool := none

/-- Puts what was asked for over other settings. -/
def Request.put (r : Request) (tree : Setting) : Setting :=
  let tree :=
    match r.maxFrames with
    | some n => Group.limits.put (.int (Int64.ofNat n)) tree
    | none => tree
  match r.traceCheckpoints with
  | some b => Group.trace.put (.bool b) tree
  | none => tree

def ofSetting (tree : Setting) : Except ConfigError Config := do
  let defaults : Config := {}
  let maxFrames ← Group.limits.read Setting.count defaults.maxFrames tree
  let traceCheckpoints ← Group.trace.read Setting.switch defaults.traceCheckpoints tree
  if maxFrames = 0 then .error .noFrames
  else .ok { maxFrames, traceCheckpoints }

/-- The configuration that a file, the environment and a caller ask for. File and environment are
put together before they are put over the defaults. -/
def combine (file : List (String × Setting)) (environment : List (String × String))
    (request : Request) : Except ConfigError Config :=
  let given := Setting.emptyTable.putKeys (file ++ ofEnvironment environment)
  ofSetting (request.put (defaults.putKeys given.asTable.2.entries))

variable {m : Type → Type} [Monad m]

/-- The first of several files that is there. -/
def firstFile (read : String → m (Except ReadError String)) :
    List String → m (Option (String × String))
  | [] => pure none
  | path :: rest => do
    match ← read path with
    | .ok text => pure (some (path, text))
    | .error _ => firstFile read rest

/-- The settings of a file, which may be named without its ending. -/
def readFile (read : String → m (Except ReadError String)) (asked : Option String) :
    m (Except ConfigError (List (String × Setting))) := do
  let path := asked.getD defaultFile
  match ← firstFile read (path :: (Path.withEnding? path fileEnding).toList) with
  | some (found, text) =>
    match ofText? (Path.tidy found) text with
    | some settings => pure (.ok settings)
    | none => pure (.error (.malformed asked))
  | none =>
    match asked with
    | some file => pure (.error (.missing file))
    | none => pure (.ok [])

/-- Loads the configuration with the files and variables there are. -/
def load (read : String → m (Except ReadError String)) (environment : List (String × String))
    (request : Request) : m (Except ConfigError Config) := do
  match ← readFile read (request.file.or (environment.lookup fileVariable)) with
  | .error e => pure (.error e)
  | .ok file => pure (combine file environment request)

end Config

end Catena
