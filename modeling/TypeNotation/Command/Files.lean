import TypeNotation.Text.Split

/-!
# Files

Running a command needs the files only as a function from paths to contents. `Folder.files` is that
function for a folder whose files are given: a path leads from the folder to a file component by
component, and fails at the first component that leads nowhere. Of what is outside the folder
nothing is known but that the folders above it exist.
-/

namespace TypeNotation

/-! ## Errors -/

/-- Why a file cannot be read. -/
inductive FileError
  | notFound
  | denied
  /-- Something on the way to the file is not a folder. -/
  | notFolder
  /-- The path leads to a folder. -/
  | isFolder
  | nameTooLong
  /-- The bytes of the file are no text. -/
  | notText
  deriving DecidableEq, Repr, Inhabited

namespace FileError

/-- The number by which a system names the error, unless the error is not the system's. -/
def number? : FileError → Option Nat
  | notFound => some 2
  | denied => some 13
  | notFolder => some 20
  | isFolder => some 21
  | nameTooLong => some 36
  | notText => none

/-- What went wrong, without the number. -/
def cause : FileError → String
  | notFound => "No such file or directory"
  | denied => "Permission denied"
  | notFolder => "Not a directory"
  | isFolder => "Is a directory"
  | nameTooLong => "File name too long"
  | notText => "stream did not contain valid UTF-8"

def message (error : FileError) : String :=
  match error.number? with
  | some number => error.cause ++ " (os error " ++ toString number ++ ")"
  | none => error.cause

end FileError

/-! ## Files by path -/

/-- The bytes of the file at a path, or why they cannot be had. -/
abbrev Files := String → Except FileError ByteArray

/-- The text of the file at a path, or why it cannot be had. -/
def Files.text (files : Files) (path : String) : Except FileError String := do
  let bytes ← files path
  match String.fromUTF8? bytes with
  | some text => .ok text
  | none => .error .notText

/-! ## The files of a folder -/

/-- The bytes of the file with a name, if the folder has one. -/
abbrev Folder := String → Option ByteArray

/-- Where a path has led so far. -/
inductive Place
  /-- The folder itself. -/
  | inside
  /-- A folder elsewhere. -/
  | outside
  | file (bytes : ByteArray)

/-- The number of bytes that a name may have. -/
def maxNameSize : Nat := 255

/-- The number of bytes that a path may have. -/
def maxPathSize : Nat := 4095

namespace Folder

def find (folder : Folder) (name : String) : Except FileError Place :=
  if maxNameSize < name.utf8ByteSize then .error .nameTooLong
  else match folder name with
    | some bytes => .ok (.file bytes)
    | none => .error .notFound

/-- Where a component of a path leads from a place. Nothing and a dot stay in a folder, two dots
leave it for the one above. -/
def enter (folder : Folder) (place : Place) (component : String) : Except FileError Place :=
  match place with
  | .file _ => .error .notFolder
  | .inside =>
    if component = "" ∨ component = "." then .ok .inside
    else if component = ".." then .ok .outside
    else folder.find component
  | .outside =>
    if component = "" ∨ component = "." ∨ component = ".." then .ok .outside
    else find (fun _ ↦ none) component

/-- Where a path leads. A path that begins with a slash begins outside the folder. -/
def follow (folder : Folder) (path : String) : Except FileError Place :=
  if path = "" then .error .notFound
  else if maxPathSize < path.utf8ByteSize then .error .nameTooLong
  else
    let start : Place := if path.toList.head? = some '/' then .outside else .inside
    (splitAtEach '/' path.toList).foldlM (fun place part ↦ folder.enter place (String.ofList part))
      start

def files (folder : Folder) : Files := fun path ↦ do
  match ← folder.follow path with
  | .file bytes => .ok bytes
  | .inside | .outside => .error .isFolder

end Folder

end TypeNotation
