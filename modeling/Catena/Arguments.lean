set_option autoImplicit false

/-!
The arguments of the command line. Arguments are read from left to right, and the first that cannot
be understood decides the error.

Values are not checked when they are read but when the next argument that is understood has come,
or at the end of their level. Until then they are pending, and an argument that is not understood
is reported before them.
-/

namespace Catena

/-- What is to be shown of a file: the stack after running it, or its tokens. -/
inductive Command where
  | run
  | tokens
  deriving DecidableEq, Repr

structure Arguments where
  command : Command
  file : String
  json : Bool
  config : Option String
  deriving DecidableEq, Repr

/-- Why there is nothing to be done. -/
inductive UsageError where
  /-- Help was asked for. -/
  | help
  /-- There are no arguments at all. -/
  | noArguments
  | noCommand
  | unknownCommand
  | unknownArgument
  | missingFile
  | missingValue
  /-- A flag has a value. -/
  | extraValue
  /-- An option is given twice. -/
  | repeated
  deriving DecidableEq, Repr

namespace Arguments

/-- How an argument looks. -/
inductive Look where
  | separator
  | long (name : String) (value : Option String)
  | short (flags : String)
  | word (text : String)
  deriving DecidableEq, Repr

def look (argument : String) : Look :=
  match argument.toList with
  | ['-', '-'] => .separator
  | '-' :: '-' :: rest =>
    let name := rest.takeWhile (· ≠ '=')
    match rest.dropWhile (· ≠ '=') with
    | _ :: value => .long (String.ofList name) (some (String.ofList value))
    | [] => .long (String.ofList name) none
  | '-' :: flag :: rest => .short (String.ofList (flag :: rest))
  | _ => .word argument

/-- What has been read but not yet checked. -/
inductive Pending where
  | nothing
  /-- The configuration option, with its value once it is there. -/
  | config (value : Option String)
  | file (word : String)
  deriving DecidableEq, Repr

/-- What has been read at one level: before the command, or after it. -/
structure Level where
  /-- The command, once it is known. -/
  command : Option Command := none
  config : Option String := none
  /-- All that follows is words. -/
  separated : Bool := false
  json : Bool := false
  file : Option String := none
  pending : Pending := .nothing

namespace Level

def setConfig (p : Level) (value : String) : Except UsageError Level :=
  if p.config.isSome then .error .repeated else .ok { p with config := some value }

/-- Checks what is pending. An option needs a value and is given once, and a file has a name. -/
def settle (p : Level) : Except UsageError Level :=
  let settled := { p with pending := .nothing }
  match p.pending with
  | .nothing => .ok settled
  | .config none => .error .missingValue
  | .config (some value) => settled.setConfig value
  | .file word =>
    if word.isEmpty then .error .missingValue else .ok { settled with file := some word }

/-- The next word is the value of the configuration option. -/
def awaitsValue (p : Level) : Bool := p.pending = .config none && !p.separated

def takesFile (p : Level) : Bool :=
  p.command.isSome && p.file.isNone &&
    match p.pending with
    | .file _ => false
    | _ => true

def long (p : Level) (name : String) (value : Option String) : Except UsageError Level :=
  if name = "config" then do
    let p ← p.settle
    match value with
    | some value => p.setConfig value
    | none => .ok { p with pending := .config none }
  else if name = "json" ∧ p.command.isSome then
    if value.isSome then .error .extraValue
    else do
      let p ← p.settle
      if p.json then .error .repeated else .ok { p with json := true }
  else if name = "help" then
    if value.isSome then .error .extraValue
    else do
      let _ ← p.settle
      .error .help
  else .error .unknownArgument

def short (p : Level) (flags : String) : Except UsageError Level :=
  if flags.startsWith "h" then do
    let _ ← p.settle
    .error .help
  else .error .unknownArgument

/-- A word is a value that is awaited, or the file if that may come here. -/
def word (p : Level) (word : String) : Except UsageError Level :=
  if p.awaitsValue then .ok { p with pending := .config (some word) }
  else if p.takesFile then do
    let p ← p.settle
    .ok { p with pending := .file word }
  else .error .unknownArgument

end Level

def command? (word : String) : Option Command :=
  if word = "run" then some .run
  else if word = "tokens" then some .tokens
  else none

/-- Help may be asked for on a command or on help itself. -/
def helpOn : List String → UsageError
  | [] => .help
  | ["help"] => .help
  | [word] => if (command? word).isSome then .help else .unknownCommand
  | _ => .unknownCommand

/-- All arguments have been read. What is after the command is checked first; options before the
command stay in force unless they are given again after it. -/
def finish (outer p : Level) (command : Command) : Except UsageError Arguments := do
  let p ← p.settle
  match p.file with
  | none => .error .missingFile
  | some file =>
    let outer ← outer.settle
    .ok ⟨command, file, p.json, p.config.or outer.config⟩

/-- Reads what follows the command. -/
def readCommand (outer : Level) (command : Command) (p : Level) :
    List String → Except UsageError Arguments
  | [] => finish outer p command
  | argument :: rest => do
    let next ←
      if p.separated then p.word argument
      else
        match look argument with
        | .separator => .ok { p with separated := true }
        | .long name value => p.long name value
        | .short flags => p.short flags
        | .word word => p.word word
    readCommand outer command next rest

/-- Reads what stands before the command. -/
def readOuter (p : Level) : List String → Except UsageError Arguments
  | [] => do
    let p ← p.settle
    .error (if p.config.isSome then .noCommand else .noArguments)
  | argument :: rest =>
    if p.separated then
      .error (if (command? argument).isSome ∨ argument = "help" then .unknownArgument
        else .unknownCommand)
    else
      match look argument with
      | .separator => readOuter { p with separated := true } rest
      | .long name value => do readOuter (← p.long name value) rest
      | .short flags => do readOuter (← p.short flags) rest
      | .word word =>
        if p.awaitsValue then do readOuter (← p.word word) rest
        else
          match command? word with
          | some command => readCommand p command { command := some command } rest
          | none => .error (if word = "help" then helpOn rest else .unknownCommand)

def read (arguments : List String) : Except UsageError Arguments := readOuter {} arguments

end Arguments

end Catena
