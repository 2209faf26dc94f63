import MessageSchema.Binary64.Numeral
import MessageSchema.Yaml.Cursor

/-!
# The text of a scalar

A scalar is written plainly, in quotes, or as a block of lines. Blanks and line breaks inside it are
folded: blanks around a line break are dropped, a single line break becomes a space, and of several
the first is dropped. Blocks keep their line breaks, unless they are folded too.

## Main definitions

* `Yaml.Gap`: blanks and line breaks between two parts of a scalar.
* `Yaml.readPlain`, `Yaml.readQuoted`, `Yaml.readBlock`: the text of a scalar.
-/

namespace MessageSchema.Yaml

/-- A fault of a text, in words: the problem, and what was being read. -/
abbrev Fault := String

/-- What is added to what was being read if that began at the very start of the text. -/
def startSuffix : String := " at position 0"

/-- A problem met while something was being read. -/
def fault {α : Type} (problem context : String) : Except Fault α :=
  .error (problem ++ ", " ++ context)

/-- Blanks and line breaks between two parts of a scalar. -/
inductive Gap where
  | none
  | blanks (cs : List Char)
  /-- The first line break, which may be escaped and then counts for nothing, and the others. -/
  | lines (first : List Char) (others : List Char)

namespace Gap

/-- Whether there are neither blanks nor line breaks. -/
def isNone : Gap → Bool
  | none => true
  | _ => false

/-- Whether there is a line break. -/
def hasBreak : Gap → Bool
  | lines _ _ => true
  | _ => false

/-- What a gap stands for. -/
def folded : Gap → List Char
  | none => []
  | blanks cs => cs
  | lines first others =>
    if first = ['\n'] then (if others.isEmpty then [' '] else others) else first ++ others

/-- The gap with one more blank. -/
def addBlank (c : Char) : Gap → Gap
  | none => blanks [c]
  | blanks cs => blanks (cs ++ [c])
  | gap => gap

/-- The gap with one more line break. -/
def addBreak (counted : List Char) : Gap → Gap
  | lines first others => lines first (others ++ counted)
  | _ => lines counted []

end Gap

/-- Reads blanks and line breaks. With an indentation, a tab in front of it is a fault. -/
def readGap (indent : Option Nat) : Nat → Gap → Cursor → Except Fault (Gap × Cursor)
  | 0, gap, cursor => .ok (gap, cursor)
  | fuel + 1, gap, cursor =>
    match cursor.head? with
    | some c =>
      if isBlank c then
        if gap.hasBreak && c == '\t' && indent.any (cursor.column < ·) then
          fault "found a tab character that violates indentation" "while scanning a plain scalar"
        else readGap indent fuel (gap.addBlank c) (cursor.skip 1)
      else if isBreak c then
        let (counted, cursor) := cursor.readBreak
        readGap indent fuel (gap.addBreak counted) cursor
      else .ok (gap, cursor)
    | none => .ok (gap, cursor)

/-! ### Plain scalars -/

/-- Characters that delimit a plain scalar inside brackets. -/
def isFlowDelimiter (c : Char) : Bool :=
  c == ',' || c == '[' || c == ']' || c == '\x7b' || c == '\x7d'

/-- Reads a plain scalar. `text` is what has been read, in reverse, and `gap` what stands between it
and the cursor. Outside of brackets, a line that is indented less ends the scalar. -/
def plainFrom (inFlow : Bool) (indent : Nat) :
    Nat → List Char → Gap → Cursor → Except Fault (List Char × Gap × Cursor)
  | 0, text, gap, cursor => .ok (text, gap, cursor)
  | fuel + 1, text, gap, cursor =>
    match cursor.head? with
    | none => .ok (text, gap, cursor)
    | some c =>
      if !gap.isNone && (cursor.isDocumentMarker || c == '#') then .ok (text, gap, cursor)
      else if isBlank c || isBreak c then do
        let (gap, cursor) ← readGap (some indent) (cursor.rest.length + 1) gap cursor
        if !inFlow && cursor.column < indent then .ok (text, gap, cursor)
        else plainFrom inFlow indent fuel text gap cursor
      else if inFlow && c == ':' && (cursor.at? 1).any (fun d => isFlowDelimiter d || d == '?') then
        fault "found unexpected ':'" "while scanning a plain scalar"
      else if (c == ':' && cursor.isSpaceAt 1) || (inFlow && isFlowDelimiter c) then
        .ok (text, gap, cursor)
      else plainFrom inFlow indent fuel (c :: (gap.folded.reverse ++ text)) .none (cursor.skip 1)

/-- A plain scalar, and whether a line break has been read behind it. -/
def readPlain (inFlow : Bool) (indent : Nat) (cursor : Cursor) :
    Except Fault (String × Bool × Cursor) := do
  let (text, gap, cursor) ← plainFrom inFlow indent (2 * cursor.rest.length + 2) [] .none cursor
  return (String.ofList text.reverse, gap.hasBreak, cursor)

/-! ### Quoted scalars -/

/-- The character that a letter behind a backslash stands for. -/
def shortEscape? : Char → Option Char
  | '0' => some '\x00'
  | 'a' => some '\x07'
  | 'b' => some '\x08'
  | 't' | '\t' => some '\t'
  | 'n' => some '\n'
  | 'v' => some '\x0b'
  | 'f' => some '\x0c'
  | 'r' => some '\r'
  | 'e' => some '\x1b'
  | ' ' => some ' '
  | '"' => some '"'
  | '/' => some '/'
  | '\\' => some '\\'
  | 'N' => some (Char.ofNat 0x85)
  | '_' => some (Char.ofNat 0xA0)
  | 'L' => some (Char.ofNat 0x2028)
  | 'P' => some (Char.ofNat 0x2029)
  | _ => none

/-- How many hexadecimal digits follow a letter behind a backslash. -/
def codeLength? : Char → Option Nat
  | 'x' => some 2
  | 'u' => some 4
  | 'U' => some 8
  | _ => none

/-- What was being read when an escape is at fault. -/
def quotedContext : String := "while parsing a quoted scalar"

/-- The character of an escape, and how many characters the escape takes. -/
def readEscape (cursor : Cursor) : Except Fault (Char × Nat) :=
  let letter := (cursor.at? 1).getD ' '
  match shortEscape? letter, codeLength? letter with
  | some c, _ => if (cursor.at? 1).isSome then .ok (c, 2)
    else fault "found unknown escape character" quotedContext
  | none, some length =>
    let digits := (cursor.rest.drop 2).take length
    match if digits.length = length then digitsValue 16 digits else none with
    | none => fault "did not find expected hexdecimal number" quotedContext
    | some n =>
      if (0xD800 ≤ n && n ≤ 0xDFFF) || n > 0x10FFFF then
        fault "found invalid Unicode character escape code" quotedContext
      else .ok (Char.ofNat n, 2 + length)
  | none, none => fault "found unknown escape character" quotedContext

/-- Reads a quoted scalar behind its opening quote, up to its closing quote. `atStart` says that
nothing has been read since the opening quote or the last gap. -/
def quotedFrom (quote : Char) :
    Nat → Bool → List Char → Cursor → Except Fault (List Char × Cursor)
  | 0, _, text, cursor => .ok (text, cursor)
  | fuel + 1, atStart, text, cursor =>
    let context := "while scanning a quoted scalar"
    if atStart && cursor.isDocumentMarker then fault "found unexpected document indicator" context
    else match cursor.head? with
    | none => fault "found unexpected end of stream" context
    | some c =>
      let skipGap (gap : Gap) (cursor : Cursor) : Except Fault (List Char × Cursor) := do
        let (gap, cursor) ← readGap none (cursor.rest.length + 1) gap cursor
        quotedFrom quote fuel true (gap.folded.reverse ++ text) cursor
      if c == quote then
        if c == '\'' && cursor.at? 1 == some '\'' then
          quotedFrom quote fuel false ('\'' :: text) (cursor.skip 2)
        else .ok (text, cursor.skip 1)
      else if isBlank c || isBreak c then skipGap .none cursor
      else if c == '\\' && quote == '"' then
        if (cursor.at? 1).any isBreak then
          let cursor := (cursor.skip 1).readBreak.2
          if cursor.head? == some quote then .ok (text, cursor.skip 1)
          else skipGap (.lines [] []) cursor
        else do
          let (c, taken) ← readEscape cursor
          quotedFrom quote fuel false (c :: text) (cursor.skip taken)
      else quotedFrom quote fuel false (c :: text) (cursor.skip 1)

/-- A quoted scalar. -/
def readQuoted (quote : Char) (cursor : Cursor) : Except Fault (String × Cursor) := do
  let (text, cursor) ← quotedFrom quote (2 * cursor.rest.length + 2) true [] (cursor.skip 1)
  return (String.ofList text.reverse, cursor)

/-! ### Blocks -/

/-- What is kept of the line breaks at the end of a block. -/
inductive Chomping
  | strip
  | clip
  | keep
deriving DecidableEq

/-- What was being read when a block is at fault. -/
def blockContext : String := "while scanning a block scalar"

/-- An explicit indentation. -/
def readIncrement (cursor : Cursor) : Except Fault (Option Nat × Cursor) :=
  match cursor.head? with
  | some c =>
    if c == '0' then fault "found an indentation indicator equal to 0" blockContext
    else if c.isDigit then .ok (some (c.toNat - '0'.toNat), cursor.skip 1)
    else .ok (none, cursor)
  | none => .ok (none, cursor)

/-- A chomping indicator. -/
def readChomping (cursor : Cursor) : Option Chomping × Cursor :=
  match cursor.head? with
  | some '+' => (some .keep, cursor.skip 1)
  | some '-' => (some .strip, cursor.skip 1)
  | _ => (none, cursor)

/-- The indicators of a block in either order. -/
def readHeader (cursor : Cursor) : Except Fault (Chomping × Option Nat × Cursor) :=
  match readChomping cursor with
  | (some chomping, cursor) => do
    let (increment, cursor) ← readIncrement cursor
    return (chomping, increment, cursor)
  | (none, cursor) => do
    let (increment, cursor) ← readIncrement cursor
    if increment.isSome then
      let (chomping, cursor) := readChomping cursor
      return (chomping.getD .clip, increment, cursor)
    else return (.clip, none, cursor)

/-- Reads indentation and empty lines. The indentation is known, or is found to be that of the
deepest line read here, and at least `least`. -/
def blockBreaksFrom (least : Nat) (indent : Option Nat) :
    Nat → Nat → List Char → Cursor → Except Fault (Nat × List Char × Cursor)
  | 0, _, breaks, cursor => .ok (indent.getD least, breaks, cursor)
  | fuel + 1, deepest, breaks, cursor =>
    let isShort (cursor : Cursor) : Bool := indent.all (cursor.column < ·)
    let spaces := cursor.rest.takeWhile (· == ' ')
    let taken := match indent with
      | some n => min spaces.length (n - cursor.column)
      | none => spaces.length
    let cursor := cursor.skip taken
    let deepest := max deepest cursor.column
    match cursor.head? with
    | some c =>
      if c == '\t' && isShort cursor then
        fault "found a tab character where an indentation space is expected" blockContext
      else if isBreak c then
        let (counted, cursor) := cursor.readBreak
        blockBreaksFrom least indent fuel deepest (breaks ++ counted) cursor
      else .ok (indent.getD (max deepest (max least 1)), breaks, cursor)
    | none => .ok (indent.getD (max deepest (max least 1)), breaks, cursor)

/-- Reads indentation and empty lines. -/
def readBlockBreaks (least : Nat) (indent : Option Nat) (cursor : Cursor) :
    Except Fault (Nat × List Char × Cursor) :=
  blockBreaksFrom least indent (cursor.rest.length + 1) 0 [] cursor

/-- Reads the lines of a block. `last` is the line break behind the last line and `breaks` are those
behind it; a line that begins with a blank, and the one behind it, are not folded. -/
def blockFrom (isFolded : Bool) (least indent : Nat) : Nat → List Char → Bool → List Char →
    List Char → Cursor → Except Fault (List Char × List Char × List Char × Cursor)
  | 0, text, _, last, breaks, cursor => .ok (text, last, breaks, cursor)
  | fuel + 1, text, wasBlank, last, breaks, cursor =>
    match cursor.head? with
    | none => .ok (text, last, breaks, cursor)
    | some c =>
      if cursor.column ≠ indent then .ok (text, last, breaks, cursor)
      else do
        let isFoldedHere := isFolded && last == ['\n'] && !wasBlank && !isBlank c
        let joint := if isFoldedHere then (if breaks.isEmpty then [' '] else []) else last
        let (line, cursor) := cursor.takeWhile (!isBreak ·)
        let (last, cursor) := cursor.readBreak
        let text := line.reverse ++ ((joint ++ breaks).reverse ++ text)
        let (_, breaks, cursor) ← readBlockBreaks least (some indent) cursor
        blockFrom isFolded least indent fuel text (isBlank c) last breaks cursor

/-- A block inside a collection whose indentation is one less than `least`. -/
def readBlock (isFolded : Bool) (least : Nat) (cursor : Cursor) :
    Except Fault (String × Cursor) := do
  let (chomping, increment, cursor) ← readHeader (cursor.skip 1)
  let cursor := cursor.skipBlanks.skipComment
  if !cursor.isLineEnd then
    fault "did not find expected comment or line break" blockContext
  else
    let cursor := cursor.readBreak.2
    let indent := increment.map fun n => (least - 1) + n
    let (indent, breaks, cursor) ← readBlockBreaks least indent cursor
    let (text, last, breaks, cursor) ←
      blockFrom isFolded least indent (cursor.rest.length + 1) [] false [] breaks cursor
    let ending := match chomping with
      | .strip => []
      | .clip => last
      | .keep => last ++ breaks
    return (String.ofList (text.reverse ++ ending), cursor)

end MessageSchema.Yaml
