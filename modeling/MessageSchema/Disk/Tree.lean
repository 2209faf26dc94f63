import MessageSchema.Dictionary
import MessageSchema.Disk.Basic

/-!
# Files in memory

A tree of directories and files with the rules of a file system: a path is followed name by name,
every name but the last has to be that of a directory, and two dots lead to the directory around.

## Main definitions

* `FileTree`: a file, or a directory with what it holds.
* `Memory`: a tree and the directory in which relative paths begin.
* `Memory.locate`: where a path leads.
* `Memory.disk`: the operations on files in memory.
-/

namespace MessageSchema

/-- A file, or a directory with what it holds under names in increasing order. -/
inductive FileTree where
  | file (content : String)
  | directory (entries : List (String × FileTree))
deriving Inhabited

namespace FileTree

/-- What stands at a place, given by the names that lead there. -/
def at? : List String → FileTree → Option FileTree
  | [], tree => some tree
  | name :: rest, .directory entries => (Dictionary.get? name entries).bind (at? rest)
  | _ :: _, .file _ => none

/-- The tree with something else, or nothing, at a place in a directory that is there. -/
def replace (new : Option FileTree) : List String → FileTree → FileTree
  | [name], .directory entries =>
    .directory (new.elim (entries.filter (·.1 ≠ name)) (Dictionary.insert name · entries))
  | name :: rest, .directory entries =>
    match Dictionary.get? name entries with
    | some inner => .directory (Dictionary.insert name (replace new rest inner) entries)
    | none => .directory entries
  | _, tree => tree

mutual

/-- The files of a tree, each under the path that leads to it from a given one. -/
def files (path : Path) : FileTree → List (Path × String)
  | .file content => [(path, content)]
  | .directory entries => filesOf path entries

/-- The files of the entries of a directory. -/
def filesOf (path : Path) : List (String × FileTree) → List (Path × String)
  | [] => []
  | (name, tree) :: rest => files (path.join ⟨name⟩) tree ++ filesOf path rest

end

end FileTree

/-- A tree of files and the directory in which relative paths begin. -/
structure Memory where
  root : FileTree
  workingDirectory : List String

namespace Memory

/-- The length in bytes that no name exceeds. -/
def longestName : Nat := 255

/-- The length in bytes that no path exceeds. -/
def longestPath : Nat := 4095

/-- Fails for a path that leads nowhere whatever the tree holds. -/
def checkPath (path : Path) : Except DiskError Unit :=
  if path.text.toList.contains '\x00' then .error .nulInName
  else if path.text.isEmpty then .error .noEntry
  else if path.text.utf8ByteSize > longestPath then .error .nameTooLong
  else .ok ()

/-- Fails unless there is a directory at a place. -/
def enter (memory : Memory) (place : List String) : Except DiskError Unit :=
  match memory.root.at? place with
  | some (.directory _) => .ok ()
  | some (.file _) => .error .notDirectory
  | none => .error .noEntry

/-- Where pieces of a path lead from a place. -/
def walk (memory : Memory) : List String → List String → Except DiskError (List String)
  | place, [] => .ok place
  | place, piece :: rest => do
    memory.enter place
    if piece.utf8ByteSize > longestName then .error .nameTooLong
    else if Path.isTrivial piece then walk memory place rest
    else if piece = ".." then walk memory place.dropLast rest
    else walk memory (place ++ [piece]) rest

/-- Where a path begins. -/
def start (memory : Memory) (path : Path) : List String :=
  if path.isAbsolute then [] else memory.workingDirectory

/-- Where a path leads. Something need not be there, but the directory around it. -/
def locate (memory : Memory) (path : Path) : Except DiskError (List String) := do
  checkPath path
  memory.walk (memory.start path) path.pieces

/-- What is where a path leads. -/
def find (memory : Memory) (path : Path) : Except DiskError FileTree := do
  let place ← memory.locate path
  (memory.root.at? place).elim (.error .noEntry) .ok

/-- The place that a path has for something new, or nothing where it ends in dots. -/
def locateNew (memory : Memory) (path : Path) : Except DiskError (Option (List String)) := do
  checkPath path
  match path.pieces.reverse.dropWhile String.isEmpty with
  | [] => return none
  | last :: outer => do
    let place ← memory.walk (memory.start path) outer.reverse
    memory.enter place
    if last.utf8ByteSize > longestName then .error .nameTooLong
    else return if last = "." ∨ last = ".." then none else some (place ++ [last])

/-- The memory with something else, or nothing, at a place. -/
def put (memory : Memory) (new : Option FileTree) (place : List String) : Memory :=
  { memory with root := memory.root.replace new place }

/-! ### Operations -/

/-- The text of a file. -/
def read (memory : Memory) (path : Path) : Except DiskError String := do
  match ← memory.find path with
  | .file content => return content
  | .directory _ => .error .isDirectory

/-- The names in a directory. -/
def entries (memory : Memory) (path : Path) : Except DiskError (List String) := do
  match ← memory.find path with
  | .file _ => .error .notDirectory
  | .directory entries => return entries.map (·.1)

/-- Whether there is a directory. -/
def isDirectory (memory : Memory) (path : Path) : Bool :=
  match memory.find path with
  | .ok (.directory _) => true
  | _ => false

/-- Creates a directory. -/
def createDirectory (memory : Memory) (path : Path) : Except DiskError Memory := do
  match ← memory.locateNew path with
  | none => .error .exists
  | some place =>
    if (memory.root.at? place).isSome then .error .exists
    else return memory.put (some (.directory [])) place

/-- Fails if there is a directory at a place. -/
def checkFile (memory : Memory) (place : List String) : Except DiskError Unit :=
  match memory.root.at? place with
  | some (.directory _) => .error .isDirectory
  | _ => .ok ()

/-- Writes a file. -/
def write (memory : Memory) (path : Path) (content : String) : Except DiskError Memory := do
  match ← memory.locateNew path with
  | none => .error .isDirectory
  | some place =>
    memory.checkFile place
    return memory.put (some (.file content)) place

/-- Moves a file to the place of another. -/
def rename (memory : Memory) (source target : Path) : Except DiskError Memory := do
  match ← memory.locateNew source, ← memory.locateNew target with
  | some old, some new =>
    memory.checkFile old
    match memory.root.at? old with
    | none => .error .noEntry
    | some tree =>
      memory.checkFile new
      return (memory.put none old).put (some tree) new
  | _, _ => .error .isDirectory

/-- Removes a file. -/
def remove (memory : Memory) (path : Path) : Except DiskError Memory := do
  let place ← memory.locate path
  memory.checkFile place
  if (memory.root.at? place).isSome then return memory.put none place else .error .noEntry

/-- The operation that a change of the files makes, unless it fails. -/
def change (result : Memory → Except DiskError Memory) : StateM Memory (Except DiskError Unit) :=
  fun memory => match result memory with
    | .ok changed => (.ok (), changed)
    | .error error => (.error error, memory)

/-- The operations on files in memory. -/
def disk : Disk (StateM Memory) where
  isThere path := return ((← get).find path).toOption.isSome
  isDirectory path := return (← get).isDirectory path
  read path := return (← get).read path
  entries path := return (← get).entries path
  createDirectory path := change (·.createDirectory path)
  write path content := change (·.write path content)
  rename source target := change (·.rename source target)
  remove path := change (·.remove path)

end Memory

end MessageSchema
