import MessageSchema.Text.Cut

/-!
# Paths of files

A path is a text of names with slashes between them. A slash at its start makes it absolute. Empty
pieces, and dots that stand for the directory they are in, mean nothing, except for a dot at the
very start.

## Main definitions

* `Path.join`: a path below another.
* `Path.parent?`, `Path.fileName?`, `Path.extension?`: the parts of a path.
-/

namespace MessageSchema

/-- A path of a file or a directory. -/
structure Path where
  text : String
deriving DecidableEq, Inhabited

namespace Path

/-- Whether the path begins at the root. -/
def isAbsolute (path : Path) : Bool :=
  path.text.toList.head? == some '/'

/-- The pieces between slashes. -/
def pieces (path : Path) : List String :=
  (Text.pieces '/' path.text.toList).map String.ofList

/-- Whether a piece means nothing. -/
def isTrivial (piece : String) : Bool :=
  piece.isEmpty || piece == "."

/-- A path below another; an absolute path stays as it is. -/
def join (path below : Path) : Path :=
  if below.isAbsolute || path.text.isEmpty then below
  else if path.text.toList.getLast? = some '/' then ⟨path.text ++ below.text⟩
  else ⟨path.text ++ "/" ++ below.text⟩

/-- The start of a path that stays when the names behind it are taken away: a slash, or a dot that
is followed by a slash or by nothing. -/
def lead (path : Path) : String :=
  match path.text.toList with
  | '/' :: _ => "/"
  | ['.'] | '.' :: '/' :: _ => "."
  | _ => ""

/-- The pieces behind the lead, without those at the end that mean nothing. -/
def body (path : Path) : List String :=
  let rest := (Text.after? path.lead.toList path.text.toList).getD []
  (((Text.pieces '/' rest).map String.ofList).reverse.dropWhile isTrivial).reverse

/-- What is around the last name of a path; nothing for the root and for an empty path. -/
def parent? (path : Path) : Option Path :=
  match path.body.reverse with
  | _ :: outer =>
    some ⟨path.lead ++ Text.joined "/" (outer.dropWhile isTrivial).reverse⟩
  | [] => if path.lead = "." then some ⟨""⟩ else none

/-- The last name of a path, unless it stands for the directory around. -/
def fileName? (path : Path) : Option String :=
  path.body.getLast?.filter (· ≠ "..")

/-- What follows the last dot of the last name, unless the name begins with that dot. -/
def extension? (path : Path) : Option String := do
  let name ← path.fileName?
  let before := Text.enclosing '.' name
  if before.isEmpty then none else some (Text.lastPiece '.' name)

/-- Whether the path is nothing but the current directory. -/
def isHere (path : Path) : Bool :=
  path.lead == "." && path.body.isEmpty

end Path

end MessageSchema
