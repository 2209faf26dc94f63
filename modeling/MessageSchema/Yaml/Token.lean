import MessageSchema.Yaml.ScalarText

/-!
# Tokens of a YAML text

## Main definitions

* `Yaml.Token`: a token.
* `Yaml.readDirective`, `Yaml.readAnchor`, `Yaml.readTag`: tokens that are read as a whole.
-/

namespace MessageSchema.Yaml

/-- How a scalar is written, as far as it matters. -/
inductive Style
  | plain
  | literal
  | other
deriving DecidableEq, Inhabited

/-- A token. -/
inductive Token
  | streamEnd
  | versionDirective (major minor : Nat)
  | tagDirective (handle start : String)
  | documentStart
  | documentEnd
  | blockSequenceStart
  | blockMappingStart
  | blockEnd
  | flowSequenceStart
  | flowSequenceEnd
  | flowMappingStart
  | flowMappingEnd
  | blockEntry
  | flowEntry
  | key
  | value
  | alias (name : String)
  | anchor (name : String)
  | tag (handle suffix : String)
  | scalar (style : Style) (text : String)
  /-- The text has no token here. -/
  | fault (problem : Fault)
deriving Inhabited

/-! ### Directives -/

/-- A part of a version. -/
def readVersionPart (cursor : Cursor) : Except Fault (Nat × Cursor) :=
  let context := "while scanning a %YAML directive"
  let (digits, cursor) := cursor.takeWhile Char.isDigit
  if digits.isEmpty then fault "did not find expected version number" context
  else if digits.length > 9 then fault "found extremely long version number" context
  else .ok ((digitsValue 10 digits).getD 0, cursor)

/-- The handle of a tag: an exclamation mark, and a name between two of them. -/
def readHandle (isDirective : Bool) (cursor : Cursor) : Except Fault (List Char × Cursor) :=
  if cursor.head? ≠ some '!' then
    fault "did not find expected '!'"
      (if isDirective then "while scanning a tag directive" else "while scanning a tag")
  else
    let (name, cursor) := (cursor.skip 1).takeWhile isNameChar
    if cursor.head? = some '!' then .ok ('!' :: name ++ ['!'], cursor.skip 1)
    else if isDirective && !name.isEmpty then
      fault "did not find expected '!'" "while parsing a tag directive"
    else .ok ('!' :: name, cursor)

/-- Characters of a tag. Inside angle brackets and in directives there are three more. -/
def isTagChar (isWide : Bool) (c : Char) : Bool :=
  isNameChar c || ";/?:@&=+$.%!~*'()".toList.contains c || (isWide && ",[]".toList.contains c)

/-- The octet of an escape. -/
def readOctet? (cursor : Cursor) : Option Nat :=
  match cursor.rest with
  | '%' :: a :: b :: _ => digitsValue 16 [a, b]
  | _ => none

/-- How many octets a character has, by its first octet. -/
def octetCount (first : Nat) : Nat :=
  if first < 0x80 then 1
  else if 0xC0 ≤ first ∧ first < 0xE0 then 2
  else if 0xE0 ≤ first ∧ first < 0xF0 then 3
  else if 0xF0 ≤ first ∧ first < 0xF8 then 4
  else 0

/-- The value of a number of further octets of a character. -/
def readFurtherOctets (context : String) : Nat → Nat → Cursor → Except Fault (Nat × Cursor)
  | 0, n, cursor => .ok (n, cursor)
  | count + 1, n, cursor =>
    match readOctet? cursor with
    | none => fault "did not find URI escaped octet" context
    | some octet =>
      if octet / 64 ≠ 2 then fault "found an incorrect trailing UTF-8 octet" context
      else readFurtherOctets context count (n * 64 + octet % 64) (cursor.skip 3)

/-- A character that is written as escaped octets. -/
def readOctets (context : String) (cursor : Cursor) : Except Fault (Char × Cursor) :=
  match readOctet? cursor with
  | none => fault "did not find URI escaped octet" context
  | some first => match octetCount first with
    | 0 => fault "found an incorrect leading UTF-8 octet" context
    | 1 => .ok (Char.ofNat first, cursor.skip 3)
    | count + 2 => do
      let (n, cursor) ←
        readFurtherOctets context (count + 1) (first % twoTo (5 - count)) (cursor.skip 3)
      return (Char.ofNat n, cursor)

/-- The characters of a tag. -/
def tagCharsFrom (isWide : Bool) (context : String) :
    Nat → Cursor → Except Fault (List Char × Cursor)
  | 0, cursor => .ok ([], cursor)
  | fuel + 1, cursor =>
    match cursor.head? with
    | some c =>
      if !isTagChar isWide c then .ok ([], cursor)
      else do
        let (c, cursor) ← if c == '%' then readOctets context cursor else pure (c, cursor.skip 1)
        let (more, cursor) ← tagCharsFrom isWide context fuel cursor
        return (c :: more, cursor)
    | none => .ok ([], cursor)

/-- The name of a tag behind what has been read of it. -/
def readTagName (isWide isDirective : Bool) (head : List Char) (cursor : Cursor) :
    Except Fault (String × Cursor) := do
  let context := if isDirective then "while parsing a %TAG directive" else "while parsing a tag"
  let (name, cursor) ← tagCharsFrom isWide context (cursor.rest.length + 1) cursor
  if head.isEmpty && name.isEmpty then fault "did not find expected tag URI" context
  else return (String.ofList (head.drop 1 ++ name), cursor)

/-- A directive. -/
def readDirective (cursor : Cursor) : Except Fault (Token × Cursor) := do
  let context := "while scanning a directive"
  let (name, cursor) := (cursor.skip 1).takeWhile isNameChar
  if name.isEmpty then fault "could not find expected directive name" context
  else if !cursor.isSpaceAt 0 then
    fault "found unexpected non-alphabetical character" context
  else
    let (token, cursor) ← match String.ofList name with
      | "YAML" => do
        let (major, cursor) ← readVersionPart cursor.skipBlanks
        if cursor.head? ≠ some '.' then
          fault "did not find expected digit or '.' character" "while scanning a %YAML directive"
        else
          let (minor, cursor) ← readVersionPart (cursor.skip 1)
          pure (Token.versionDirective major minor, cursor)
      | "TAG" => do
        let context := "while scanning a %TAG directive"
        let (handle, cursor) ← readHandle true cursor.skipBlanks
        if !cursor.head?.any isBlank then fault "did not find expected whitespace" context
        else
          let (start, cursor) ← readTagName true true [] cursor.skipBlanks
          if !cursor.isSpaceAt 0 then
            fault "did not find expected whitespace or line break" context
          else pure (Token.tagDirective (String.ofList handle) start, cursor)
      | _ => fault "found unknown directive name" context
    let cursor := cursor.skipBlanks.skipComment
    if !cursor.isLineEnd then fault "did not find expected comment or line break" context
    else return (token, cursor.readBreak.2)

/-! ### Anchors, aliases and tags -/

/-- Whether an anchor may end at a cursor. -/
def isAnchorEnd (cursor : Cursor) : Bool :=
  cursor.isSpaceAt 0 || cursor.head?.any fun c => "?:,]\x7d%@`".toList.contains c

/-- The name of an anchor or an alias. -/
def readAnchor (isAlias : Bool) (cursor : Cursor) : Except Fault (Token × Cursor) :=
  let (name, cursor) := (cursor.skip 1).takeWhile isNameChar
  if name.isEmpty || !isAnchorEnd cursor then
    fault "did not find expected alphabetic or numeric character"
      (if isAlias then "while scanning an alias" else "while scanning an anchor")
  else
    let name := String.ofList name
    .ok (if isAlias then .alias name else .anchor name, cursor)

/-- A tag: its name in angle brackets, or a handle and what it stands in front of. The mark by
itself is a tag of its own. -/
def readTag (inFlow : Bool) (cursor : Cursor) : Except Fault (Token × Cursor) := do
  let context := "while scanning a tag"
  let (handle, suffix, cursor) ←
    if cursor.at? 1 = some '<' then do
      let (name, cursor) ← readTagName true false [] (cursor.skip 2)
      if cursor.head? ≠ some '>' then fault "did not find the expected '>'" context
      else pure ("", name, cursor.skip 1)
    else do
      let (handle, cursor) ← readHandle false cursor
      if handle.length > 1 && handle.getLast? = some '!' then
        let (name, cursor) ← readTagName false false [] cursor
        pure (String.ofList handle, name, cursor)
      else
        let (name, cursor) ← readTagName false false handle cursor
        pure (if name.isEmpty then ("", "!", cursor) else ("!", name, cursor))
  if (inFlow && cursor.head? = some ',') || cursor.isSpaceAt 0 then
    return (.tag handle suffix, cursor)
  else fault "did not find expected whitespace or line break" context

end MessageSchema.Yaml
