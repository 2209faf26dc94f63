/-!
# Cutting and joining text

Cuts at the first or last occurrence of a part, on lists of characters, and the same on strings. White
space is cut off at both ends.

## Main definitions

* `Text.isBlank`, `Text.trim`: white space, and a text without white space at either end.
* `Text.after?`: what follows a given beginning.
* `Text.splitFirst?`: the parts before and after the first occurrence of a text.
* `Text.pieces`, `Text.joined`: the pieces between separators, and their joining.
* `Text.lastPiece`, `Text.enclosing`: the piece behind the last separator, and what stands before.
-/

namespace MessageSchema.Text

/-- The property White_Space. -/
def isBlank (c : Char) : Bool :=
  let n := c.toNat
  (0x09 ≤ n && n ≤ 0x0D) || n == 0x20 || n == 0x85 || n == 0xA0 || n == 0x1680 ||
    (0x2000 ≤ n && n ≤ 0x200A) || n == 0x2028 || n == 0x2029 || n == 0x202F || n == 0x205F ||
    n == 0x3000

/-- The characters up to the last that is not white space. -/
def trimEnd (cs : List Char) : List Char :=
  (cs.reverse.dropWhile isBlank).reverse

/-- The characters from the first to the last that is not white space. -/
def trim (cs : List Char) : List Char :=
  trimEnd (cs.dropWhile isBlank)

/-- What follows `start` in a text that begins with it. -/
def after? : List Char → List Char → Option (List Char)
  | [], cs => some cs
  | _ :: _, [] => none
  | s :: start, c :: cs => if s = c then after? start cs else none

/-- The parts before and after the first occurrence of `part`. -/
def splitFirst? (part : List Char) : List Char → Option (List Char × List Char)
  | [] => (after? part []).map (([], ·))
  | c :: cs =>
    match after? part (c :: cs) with
    | some rest => some ([], rest)
    | none => (splitFirst? part cs).map fun (before, rest) => (c :: before, rest)

/-- The pieces between occurrences of a separator; there is always at least one. -/
def pieces (separator : Char) : List Char → List (List Char)
  | [] => [[]]
  | c :: cs =>
    if c = separator then [] :: pieces separator cs
    else match pieces separator cs with
      | [] => [[c]]
      | piece :: rest => (c :: piece) :: rest

/-- Texts joined with a separator between them. -/
def joined (separator : String) (parts : List String) : String :=
  separator.intercalate parts

/-- What follows `start` in a string that begins with it. -/
def stripStart? (start : String) (text : String) : Option String :=
  (after? start.toList text.toList).map String.ofList

/-- The string without `ending`, if it has that ending. -/
def stripEnd? (ending : String) (text : String) : Option String :=
  (after? ending.toList.reverse text.toList.reverse).map (String.ofList ·.reverse)

/-- The piece of a string behind the last occurrence of a separator, or all of it. -/
def lastPiece (separator : Char) (text : String) : String :=
  String.ofList (text.toList.reverse.takeWhile (· ≠ separator)).reverse

/-- What stands before the last occurrence of a separator, or nothing at all. -/
def enclosing (separator : Char) (text : String) : String :=
  String.ofList ((text.toList.reverse.dropWhile (· ≠ separator)).drop 1).reverse

/-- A dotted name below a scope; the empty scope leaves the name as it is. -/
def qualified (scope name : String) : String :=
  if scope.isEmpty then name else scope ++ "." ++ name

/-- A name without the dot that marks it as fully qualified. -/
def withoutDot (name : String) : String :=
  (stripStart? "." name).getD name

end MessageSchema.Text
