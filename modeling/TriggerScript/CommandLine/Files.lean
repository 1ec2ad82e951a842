/-!
# Files

The command line asks for files by their paths and takes what it gets: a text, or the reason why there is none.
-/

namespace TriggerScript

/-- Why a file cannot be read. -/
inductive FileFault where
  /-- There is nothing at the path. -/
  | missing
  /-- The path goes through something that is no directory. -/
  | notDirectory
  /-- The path leads to a directory. -/
  | isDirectory
  /-- The file holds bytes that are no text. -/
  | notText
  /-- Any other reason. -/
  | other (reason : String)
  deriving DecidableEq, Repr

namespace FileFault

/-- The wording of a fault. -/
def message : FileFault → String
  | .missing => "No such file or directory (os error 2)"
  | .notDirectory => "Not a directory (os error 20)"
  | .isDirectory => "Is a directory (os error 21)"
  | .notText => "stream did not contain valid UTF-8"
  | .other reason => reason

/-- Whether a fault says that nothing is at the path. -/
def isAbsence : FileFault → Bool
  | .missing | .notDirectory => true
  | _ => false

end FileFault

/-- A directory that holds nothing but files. -/
structure Folder where
  /-- The names of the files and their texts. -/
  files : List (String × String) := []
  deriving DecidableEq, Repr, Inhabited

namespace Folder

/-- Whether a part of a path stays in the directory where it stands. -/
def isIdle (part : String) : Bool :=
  part = "" || part = "."

/-- Reads what a path leads to from outside of the folder, where only directories are known. -/
def readOutside (parts : List String) : Except FileFault String :=
  if parts.all fun part => isIdle part || part = ".." then .error .isDirectory else .error .missing

/-- Reads what the parts of a path lead to from inside of the folder. -/
def readParts (folder : Folder) : List String → Except FileFault String
  | [] => .error .isDirectory
  | part :: parts =>
    if isIdle part then folder.readParts parts
    else if part = ".." then readOutside parts
    else
      match folder.files.find? (·.1 = part) with
      | none => .error .missing
      | some (_, text) => if parts.isEmpty then .ok text else .error .notDirectory

/-- Reads a file. -/
def read (folder : Folder) (path : String) : Except FileFault String :=
  match path.splitOn "/" with
  | [""] => .error .missing
  | "" :: parts => readOutside parts
  | parts => folder.readParts parts

end Folder

end TriggerScript
