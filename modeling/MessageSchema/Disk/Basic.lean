import MessageSchema.Disk.Path

/-!
# Access to files

What the commands need of a file system, as a record of operations that may run in any monad. A
directory is created together with the directories around it from the single steps.

## Main definitions

* `DiskError`: why an operation fails; `DiskError.message` is its wording.
* `Disk`: the operations.
* `Disk.createDirectories`: creates a directory and the directories around it.
-/

namespace MessageSchema

/-- Why an operation on files fails. -/
inductive DiskError
  | noEntry
  | exists
  | notDirectory
  | isDirectory
  | nameTooLong
  | nulInName
  | other (words : String)
deriving DecidableEq, Inhabited

/-- The wording of an error. -/
def DiskError.message : DiskError → String
  | .noEntry => "No such file or directory (os error 2)"
  | .exists => "File exists (os error 17)"
  | .notDirectory => "Not a directory (os error 20)"
  | .isDirectory => "Is a directory (os error 21)"
  | .nameTooLong => "File name too long (os error 36)"
  | .nulInName => "file name contained an unexpected NUL byte"
  | .other words => words

/-- The operations of a file system. -/
structure Disk (m : Type → Type) where
  /-- Whether there is a file or a directory. -/
  isThere : Path → m Bool
  isDirectory : Path → m Bool
  /-- The text of a file. -/
  read : Path → m (Except DiskError String)
  /-- The names in a directory, in any order. -/
  entries : Path → m (Except DiskError (List String))
  /-- Creates a directory in a directory that is there. -/
  createDirectory : Path → m (Except DiskError Unit)
  /-- Writes a file, whatever it held. -/
  write : Path → String → m (Except DiskError Unit)
  /-- Moves a file to the place of another. -/
  rename : Path → Path → m (Except DiskError Unit)
  /-- Removes a file. -/
  remove : Path → m (Except DiskError Unit)

namespace Disk

variable {m : Type → Type} [Monad m]

/-- Creates a directory, which may be there already, as the last of several. -/
def ensureDirectory (disk : Disk m) (path : Path) : m (Except DiskError Unit) := do
  match ← disk.createDirectory path with
  | .ok () => return .ok ()
  | .error error => return if ← disk.isDirectory path then .ok () else .error error

/-- Creates a directory and up to a number of directories around it. -/
def createDirectoriesWithin (disk : Disk m) : Nat → Path → m (Except DiskError Unit)
  | 0, _ => return .error .nameTooLong
  | levels + 1, path => do
    if path.text.isEmpty then return .ok ()
    else match ← disk.ensureDirectory path with
      | .error .noEntry => match path.parent? with
        | none => return .error (.other "failed to create whole tree")
        | some parent => match ← createDirectoriesWithin disk levels parent with
          | .error error => return .error error
          | .ok () => disk.ensureDirectory path
      | result => return result

/-- Creates a directory and the directories around it. -/
def createDirectories (disk : Disk m) (path : Path) : m (Except DiskError Unit) :=
  disk.createDirectoriesWithin (path.text.length + 1) path

end Disk

end MessageSchema
