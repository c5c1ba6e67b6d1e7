import Catena.Bindings

set_option autoImplicit false

/-!
Files below a working folder, found by their paths. Empty parts of a path and single points stand
for the folder they are in, and double points for the one around it. Around the working folder there
are further folders of which nothing is known, so nothing is found in them.
-/

namespace Catena

/-- Why a file cannot be read. -/
inductive ReadError where
  | missing
  /-- Something on the way is not a folder. -/
  | notFolder
  | isFolder
  | longName
  /-- Paths do not contain the null character. -/
  | nullCharacter
  deriving DecidableEq, Repr

namespace ReadError

/-- The number under which the system knows an error. -/
def code? : ReadError → Option Nat
  | .missing => some 2
  | .notFolder => some 20
  | .isFolder => some 21
  | .longName => some 36
  | .nullCharacter => none

def reason : ReadError → String
  | .missing => "No such file or directory"
  | .notFolder => "Not a directory"
  | .isFolder => "Is a directory"
  | .longName => "File name too long"
  | .nullCharacter => "file name contained an unexpected NUL byte"

def message (e : ReadError) : String :=
  match e.code? with
  | some code => s!"{e.reason} (os error {code})"
  | none => e.reason

end ReadError

namespace Path

def parts (path : String) : List String := path.splitOn "/"

/-- Stands for the folder it is in. -/
def isIdle (part : String) : Bool := part = "" || part = "."

/-- The path without the parts that lead nowhere. -/
def tidy (path : String) : String :=
  "/".intercalate ((parts path).filter (!isIdle ·))

/-- The path with an ending added to its last name, if it has one. -/
def withEnding? (path ending : String) : Option String :=
  match (parts path).reverse.dropWhile isIdle with
  | [] => none
  | ".." :: _ => none
  | name :: above => some ("/".intercalate ((name ++ ending) :: above).reverse)

/-- How many bytes a name may have. -/
def nameLimit : Nat := 255

/-- How many bytes a path may have. -/
def pathLimit : Nat := 4095

end Path

inductive FileTree where
  | file (text : String)
  | folder (entries : Bindings FileTree)

namespace FileTree

def empty : FileTree := .folder .empty

instance : Inhabited FileTree := ⟨empty⟩

/-- The entry of a name in a folder. -/
def entry (name : String) (entries : Bindings FileTree) : Except ReadError FileTree :=
  if Path.nameLimit < name.utf8ByteSize then .error .longName
  else
    match entries.get? name with
    | some found => .ok found
    | none => .error .missing

/-- What a path leads to from here, given the folders around this one from the inside out. -/
def walk : List String → (here : FileTree) → (around : List FileTree) →
    Except ReadError FileTree
  | [], here, _ => .ok here
  | _ :: _, .file _, _ => .error .notFolder
  | part :: rest, .folder entries, around =>
    if Path.isIdle part then walk rest (.folder entries) around
    else if part = ".." then
      match around with
      | [] => walk rest empty []
      | outer :: further => walk rest outer further
    else do
      walk rest (← entry part entries) (.folder entries :: around)

/-- Reads the file at a path. A path that begins with a slash leads out of the working folder. -/
def read (tree : FileTree) (path : String) : Except ReadError String := do
  if path.contains '\x00' then throw .nullCharacter
  if path.isEmpty then throw .missing
  if Path.pathLimit < path.utf8ByteSize then throw .longName
  let start := if path.startsWith "/" then empty else tree
  match ← walk (Path.parts path) start [] with
  | .file text => .ok text
  | .folder _ => .error .isFolder

/-- Adds a file at a path of names. -/
def add (text : String) : List String → FileTree → FileTree
  | [], _ => .file text
  | name :: rest, tree =>
    let entries :=
      match tree with
      | .folder entries => entries
      | .file _ => .empty
    .folder (entries.insert name (add text rest ((entries.get? name).getD empty)))

/-- The folder with these files. -/
def ofList (files : List (String × String)) : FileTree :=
  files.foldl (fun tree (path, text) =>
    tree.add text ((Path.parts path).filter (!Path.isIdle ·))) empty

end FileTree

end Catena
