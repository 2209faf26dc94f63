import MessageSchema.Disk.Basic
import MessageSchema.Glob.Pattern

/-!
# Paths that fit a pattern

A pattern for paths is a pattern for each of its pieces. Pieces without any freedom are looked up,
the others are compared with the names in a directory, in increasing order.

## Main definitions

* `Glob.Error`: why a text has no paths.
* `Glob.expand`: the paths that fit a text.
-/

namespace MessageSchema.Glob

/-- Why a text has no paths. -/
inductive Error
  | invalid (error : PatternError)
  | unreadable (path : Path) (error : DiskError)

/-- The wording of an error. -/
def Error.message : Error → String
  | .invalid error => error.message
  | .unreadable path error =>
    "attempting to read `" ++ path.text ++ "` resulted in an error: " ++ error.message

/-- Paths, or the first error among several results. -/
def joined (results : List (Except Error (List Path))) : Except Error (List Path) := do
  return (← results.mapM id).flatten

variable {m : Type → Type} [Monad m]

/-- A path that is found, which may have to be a directory. -/
def found (disk : Disk m) (onlyDirectories : Bool) (path : Path) :
    m (Except Error (List Path)) := do
  if !onlyDirectories then return .ok [path]
  else return .ok (if ← disk.isDirectory path then [path] else [])

/-- Whether a pattern begins with a dot, which the names of a directory and of the one around it
do. -/
def beginsWithDot (pattern : Pattern) : Bool :=
  pattern.head? == some (.char '.')

mutual

/-- The paths below a path that fit the patterns of the pieces that follow. -/
def below (disk : Disk m) (onlyDirectories : Bool) :
    Nat → List Pattern → Path → m (Except Error (List Path))
  | 0, _, _ | _, [], _ => return .ok []
  | fuel + 1, pattern :: rest, path => do
    let further (path : Path) : m (Except Error (List Path)) :=
      if rest.isEmpty then found disk onlyDirectories path
      else below disk onlyDirectories fuel rest path
    let isDirectory ← disk.isDirectory path
    match pattern.literal? with
    | some name =>
      let next := if path.isHere then ⟨name⟩ else path.join ⟨name⟩
      let isThere ← if name = "." ∨ name = ".." then pure isDirectory else disk.isThere next
      if isThere then further next else return .ok []
    | none =>
      if !isDirectory then return .ok []
      else match ← disk.entries path with
        | .error error => return .error (.unreadable path error)
        | .ok names =>
          let dots := [".", ".."].filter fun name => beginsWithDot pattern && pattern.accepts name
          let special ← dots.reverse.mapM fun name => further (path.join ⟨name⟩)
          let others ← (names.mergeSort (· ≤ ·)).mapM fun name =>
            entry disk onlyDirectories fuel pattern rest name
              (if path.isHere then ⟨name⟩ else path.join ⟨name⟩)
          return joined (special ++ others)

/-- The paths at and below an entry of a directory that fit the patterns from its piece on. -/
def entry (disk : Disk m) (onlyDirectories : Bool) :
    Nat → Pattern → List Pattern → String → Path → m (Except Error (List Path))
  | 0, _, _, _, _ => return .ok []
  | fuel + 1, pattern, rest, name, path => do
    let named (pattern : Pattern) (rest : List Pattern) : m (Except Error (List Path)) :=
      if !pattern.accepts name then return .ok []
      else if rest.isEmpty then found disk onlyDirectories path
      else below disk onlyDirectories fuel rest path
    if !pattern.isRecursive then named pattern rest
    else
      let rest := rest.dropWhile Pattern.isRecursive
      let isDirectory ← disk.isDirectory path
      let inside ←
        if isDirectory then below disk onlyDirectories fuel (pattern :: rest) path
        else pure (.ok [])
      let here ← match rest with
        | [] => pure (.ok (if isDirectory then [path] else []))
        | pattern :: rest => named pattern rest
      return joined [here, inside]

end

/-- How deep directories are searched. No path that a file system takes is longer in bytes. -/
def deepest : Nat := 4096

/-- Where the search for a text begins, and the pieces of the rest of it. -/
def startOf (text : String) : Path × List String :=
  match Text.stripStart? "/" text with
  | some rest => (⟨"/"⟩, (Path.mk rest).pieces)
  | none => (⟨"."⟩, (Path.mk text).pieces)

/-- The paths that fit a text, in order. A slash at its end asks for directories. -/
def expand (disk : Disk m) (text : String) : m (Except Error (List Path)) := do
  let (start, pieces) := startOf text
  let onlyDirectories := pieces.getLast? == some ""
  let patterns := do
    let _ ← Pattern.ofText text
    (if onlyDirectories then pieces.dropLast else pieces).mapM Pattern.ofText
  match patterns with
  | .error error => return .error (.invalid error)
  | .ok patterns =>
    below disk onlyDirectories (2 * deepest + 2 * patterns.length) patterns start

end MessageSchema.Glob
