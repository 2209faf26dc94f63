/-!
# Places in a YAML text

A cursor stands in front of the rest of a text and knows how far it has come. Lines end in any of
five line breaks; a line break that is read counts as a line feed, except for the two separators of
Unicode, which are kept.

## Main definitions

* `Yaml.Cursor`: a place in a text.
* `Yaml.Cursor.readBreak`: past a line break.
* `Yaml.unreadable?`: where a text holds a character that no document may hold.
-/

namespace MessageSchema.Yaml

/-- A place in a text: what is left, how many characters have been read, and the line and column. -/
structure Cursor where
  rest : List Char
  index : Nat := 0
  line : Nat := 0
  column : Nat := 0
deriving Inhabited

/-- A line break. -/
def isBreak (c : Char) : Bool :=
  c == '\r' || c == '\n' || c.toNat == 0x85 || c.toNat == 0x2028 || c.toNat == 0x2029

/-- A space or a tab. -/
def isBlank (c : Char) : Bool :=
  c == ' ' || c == '\t'

/-- Characters of names of anchors, handles and directives. -/
def isNameChar (c : Char) : Bool :=
  c.isAlphanum || c == '_' || c == '-'

/-- A character of a document. -/
def isReadable (c : Char) : Bool :=
  let n := c.toNat
  n == 0x09 || n == 0x0A || n == 0x0D || (0x20 ≤ n && n ≤ 0x7E) || n == 0x85 ||
    (0xA0 ≤ n && n ≤ 0xD7FF) || (0xE000 ≤ n && n ≤ 0xFFFD && n != 0xFEFF) || 0x10000 ≤ n

/-- The position in bytes of the first character that no document may hold, counted from a given
position. -/
def unreadableFrom? : Nat → List Char → Option Nat
  | _, [] => none
  | n, c :: rest => if isReadable c then unreadableFrom? (n + c.utf8Size) rest else some n

/-- The position in bytes of the first character that no document may hold, in a text whose byte
order mark is `marked`. -/
def unreadable? (marked : Bool) (cs : List Char) : Option Nat :=
  unreadableFrom? (if marked then 3 else 0) cs

namespace Cursor

/-- The next character. -/
def head? (cursor : Cursor) : Option Char :=
  cursor.rest.head?

/-- The character a number of places further on. -/
def at? (cursor : Cursor) (n : Nat) : Option Char :=
  cursor.rest[n]?

/-- Whether the character a number of places further on is a blank, a line break or the end. -/
def isSpaceAt (cursor : Cursor) (n : Nat) : Bool :=
  match cursor.at? n with
  | some c => isBlank c || isBreak c
  | none => true

/-- Whether the next character is a line break or the end. -/
def isLineEnd (cursor : Cursor) : Bool :=
  match cursor.head? with
  | some c => isBreak c
  | none => true

/-- Past a number of characters of a line. -/
def skip (cursor : Cursor) (n : Nat) : Cursor :=
  let taken := min n cursor.rest.length
  ⟨cursor.rest.drop n, cursor.index + taken, cursor.line, cursor.column + taken⟩

/-- Past a line break, which is returned as it counts; nowhere if there is none. -/
def readBreak (cursor : Cursor) : List Char × Cursor :=
  let next (counted : List Char) (taken : Nat) : List Char × Cursor :=
    (counted, ⟨cursor.rest.drop taken, cursor.index + taken, cursor.line + 1, 0⟩)
  match cursor.rest with
  | '\r' :: '\n' :: _ => next ['\n'] 2
  | c :: _ =>
    if !isBreak c then ([], cursor)
    else if c.toNat == 0x2028 || c.toNat == 0x2029 then next [c] 1
    else next ['\n'] 1
  | [] => ([], cursor)

/-- Past the characters of a line as long as they are in a class, which are returned. -/
def takeWhile (p : Char → Bool) (cursor : Cursor) : List Char × Cursor :=
  let taken := cursor.rest.takeWhile p
  (taken, cursor.skip taken.length)

/-- Past blanks. -/
def skipBlanks (cursor : Cursor) : Cursor :=
  (cursor.takeWhile isBlank).2

/-- Past a comment, up to the end of the line. -/
def skipComment (cursor : Cursor) : Cursor :=
  if cursor.head? = some '#' then (cursor.takeWhile (!isBreak ·)).2 else cursor

/-- Whether a line begins here with three given characters that stand by themselves. -/
def isMarker (cursor : Cursor) (c : Char) : Bool :=
  cursor.column == 0 && cursor.rest.take 3 == [c, c, c] && cursor.isSpaceAt 3

/-- Whether a line begins here that begins or ends a document. -/
def isDocumentMarker (cursor : Cursor) : Bool :=
  cursor.isMarker '-' || cursor.isMarker '.'

end Cursor

end MessageSchema.Yaml
