import MessageSchema.Yaml.Token

/-!
# Reading the tokens of a YAML text

Outside of brackets, collections begin where the indentation grows and end where it falls back. What
may turn out to be a key is remembered until a colon follows it on the same line, within 1024
characters; only then its token, and that of a mapping that begins with it, are put in front of it.
A token that may still turn out to be a key is not handed on, so a fault in front of the decision
hides it.

## Main definitions

* `Yaml.Reader`: what is known between two tokens.
* `Yaml.Reader.fetch`: reads on by at least one token.
* `Yaml.tokens`: the tokens of a text, the last of which is its end or a fault.
-/

namespace MessageSchema.Yaml

/-- A place that may turn out to begin with a key. -/
structure KeyPlace where
  /-- Whether a key has to begin there. -/
  required : Bool
  /-- The number of tokens in front of it. -/
  token : Nat
  index : Nat
  line : Nat
  column : Nat

/-- What is known between two tokens. -/
structure Reader where
  cursor : Cursor
  /-- The tokens read so far. -/
  tokens : Array Token := #[]
  /-- The column of the innermost block collection, and those of the collections around it. -/
  indent : Int := -1
  indents : List Int := []
  /-- The possible keys, one at most for the block level and for each bracket that is open. -/
  keys : List (Option KeyPlace) := [none]
  keyAllowed : Bool := true

namespace Reader

/-- How many brackets are open. -/
def flowLevel (reader : Reader) : Nat :=
  reader.keys.length - 1

/-- Whether a bracket is open. -/
def inFlow (reader : Reader) : Bool :=
  reader.flowLevel ≠ 0

/-- The reader with one more token. -/
def push (token : Token) (reader : Reader) : Reader :=
  { reader with tokens := reader.tokens.push token }

/-- The reader with a token put in front of the others from a number on. -/
def insert (n : Nat) (token : Token) (reader : Reader) : Reader :=
  { reader with tokens := reader.tokens.insertIdx! n token }

/-- The reader past a number of characters of a line. -/
def skip (n : Nat) (reader : Reader) : Reader :=
  { reader with cursor := reader.cursor.skip n }

/-- The reader with a token behind which it goes on. -/
def pushAt (result : Token × Cursor) (reader : Reader) : Reader :=
  { reader.push result.1 with cursor := result.2 }

/-! ### Possible keys -/

/-- The fault of a key that is required and does not come. -/
def missingColon {α : Type} : Except Fault α :=
  fault "could not find expected ':'" "while scanning a simple key"

/-- Whether a possible key is too far back. -/
def isStale (cursor : Cursor) (key : KeyPlace) : Bool :=
  key.line < cursor.line || key.index + 1024 < cursor.index

/-- Forgets the possible keys that are too far back. -/
def dropStale (reader : Reader) : Except Fault Reader :=
  let stale := reader.keys.filter (·.any (isStale reader.cursor))
  if stale.any (·.any (·.required)) then missingColon
  else .ok { reader with
    keys := reader.keys.map fun key => if key.any (isStale reader.cursor) then none else key }

/-- Forgets the possible key of the current level. -/
def removeKey (reader : Reader) : Except Fault Reader :=
  match reader.keys with
  | some key :: rest =>
    if key.required then missingColon else .ok { reader with keys := none :: rest }
  | _ => .ok reader

/-- Remembers that a key may begin here. -/
def saveKey (reader : Reader) : Except Fault Reader :=
  if !reader.keyAllowed then .ok reader
  else do
    let reader ← reader.removeKey
    let cursor := reader.cursor
    let key : KeyPlace :=
      { required := !reader.inFlow && reader.indent == cursor.column
        token := reader.tokens.size
        index := cursor.index
        line := cursor.line
        column := cursor.column }
    return { reader with keys := some key :: reader.keys.drop 1 }

/-- Sets whether a key may begin next. -/
def allowKey (allowed : Bool) (reader : Reader) : Reader :=
  { reader with keyAllowed := allowed }

/-! ### Indentation -/

/-- Begins a block collection at a column, if that lies further in. Its token is put in front of the
others from a number on. -/
def roll (column : Nat) (position : Option Nat) (token : Token) (reader : Reader) : Reader :=
  if !reader.inFlow && reader.indent < column then
    let reader := match position with
      | some n => reader.insert n token
      | none => reader.push token
    { reader with indent := column, indents := reader.indent :: reader.indents }
  else reader

/-- Ends the block collections that lie further in than a column. -/
def unrollFrom (column : Int) : List Int → Reader → Reader
  | [], reader => reader
  | outer :: rest, reader =>
    if reader.indent > column then
      unrollFrom column rest { reader.push .blockEnd with indent := outer, indents := rest }
    else reader

/-- Ends the block collections that lie further in than a column. -/
def unroll (column : Int) (reader : Reader) : Reader :=
  if reader.inFlow then reader else unrollFrom column reader.indents reader

/-! ### Tokens -/

/-- Reads white space and comments. A line break outside of brackets allows a key; where a key is
allowed, tabs do not count as white space. -/
def skipSpace : Nat → Reader → Reader
  | 0, reader => reader
  | fuel + 1, reader =>
    let tabs := reader.inFlow || !reader.keyAllowed
    let cursor := (reader.cursor.takeWhile fun c => c == ' ' || (tabs && c == '\t')).2.skipComment
    let reader := { reader with cursor }
    if cursor.head?.any isBreak then
      let reader := { reader with cursor := cursor.readBreak.2 }
      skipSpace fuel (if reader.inFlow then reader else reader.allowKey true)
    else reader

/-- Begins a collection in brackets. -/
def openFlow (token : Token) (reader : Reader) : Except Fault Reader := do
  let reader ← reader.saveKey
  return ({ reader with keys := none :: reader.keys }.allowKey true).push token |>.skip 1

/-- Ends a collection in brackets. -/
def closeFlow (token : Token) (reader : Reader) : Except Fault Reader := do
  let reader ← reader.removeKey
  let keys := if reader.inFlow then reader.keys.drop 1 else reader.keys
  return ({ reader with keys }.allowKey false).push token |>.skip 1

/-- Ends all block collections in front of a token. -/
def endBlocks (reader : Reader) : Except Fault Reader := do
  let reader ← (reader.unroll (-1)).removeKey
  return reader.allowKey false

/-- The mark of an item of a block sequence. -/
def fetchEntry (reader : Reader) : Except Fault Reader := do
  if !reader.inFlow && !reader.keyAllowed then
    .error "block sequence entries are not allowed in this context"
  else
    let reader := reader.roll reader.cursor.column none .blockSequenceStart
    let reader ← reader.removeKey
    return (reader.allowKey true).push .blockEntry |>.skip 1

/-- The mark of a key. -/
def fetchKey (reader : Reader) : Except Fault Reader := do
  if !reader.inFlow && !reader.keyAllowed then
    .error "mapping keys are not allowed in this context"
  else
    let reader := reader.roll reader.cursor.column none .blockMappingStart
    let reader ← reader.removeKey
    return (reader.allowKey !reader.inFlow).push .key |>.skip 1

/-- The mark of a value. What has been remembered as a possible key becomes one. -/
def fetchValue (reader : Reader) : Except Fault Reader :=
  match reader.keys with
  | some key :: rest =>
    let reader := { reader with keys := none :: rest }.insert key.token .key
    let reader := reader.roll key.column (some key.token) .blockMappingStart
    .ok ((reader.allowKey false).push .value |>.skip 1)
  | _ =>
    if !reader.inFlow && !reader.keyAllowed then
      .error "mapping values are not allowed in this context"
    else
      let reader := reader.roll reader.cursor.column none .blockMappingStart
      .ok ((reader.allowKey !reader.inFlow).push .value |>.skip 1)

/-- The result of reading a token here. A fault says that the token begins at the very start of the
text. -/
def located {α : Type} (reader : Reader) (result : Except Fault α) : Except Fault α :=
  if reader.cursor.line = 0 ∧ reader.cursor.column = 0 then result.mapError (· ++ startSuffix)
  else result

/-- A token that may begin a key. -/
def fetchWith (read : Cursor → Except Fault (Token × Cursor)) (reader : Reader) :
    Except Fault Reader := do
  let reader ← reader.saveKey
  let result ← reader.located (read reader.cursor)
  return (reader.allowKey false).pushAt result

/-- A scalar in quotes. -/
def fetchQuoted (quote : Char) (reader : Reader) : Except Fault Reader :=
  reader.fetchWith fun cursor => do
    let (text, cursor) ← readQuoted quote cursor
    return (.scalar .other text, cursor)

/-- The least indentation of what stands inside the innermost block collection. -/
def innerIndent (reader : Reader) : Nat :=
  (reader.indent + 1).toNat

/-- A block of lines. -/
def fetchBlock (isFolded : Bool) (reader : Reader) : Except Fault Reader := do
  let reader ← reader.removeKey
  let (text, cursor) ←
    reader.located (readBlock isFolded reader.innerIndent reader.cursor)
  let style := if isFolded then Style.other else .literal
  return (reader.allowKey true).pushAt (.scalar style text, cursor)

/-- A plain scalar. Behind a line break a key may begin. -/
def fetchPlain (reader : Reader) : Except Fault Reader := do
  let reader ← reader.saveKey
  let (text, hasBreak, cursor) ←
    reader.located (readPlain reader.inFlow reader.innerIndent reader.cursor)
  return (reader.allowKey hasBreak).pushAt (.scalar .plain text, cursor)

/-- Characters that cannot begin a plain scalar. -/
def isIndicator (c : Char) : Bool :=
  "-?:,[]\x7b\x7d#&*!|>'\"%@`".toList.contains c

/-- Whether a plain scalar begins here. -/
def startsPlain (reader : Reader) (c : Char) : Bool :=
  let next := reader.cursor.at? 1
  (!isBlank c && !isBreak c && !isIndicator c) || (c == '-' && !next.any isBlank) ||
    (!reader.inFlow && (c == '?' || c == ':') && !reader.cursor.isSpaceAt 1)

/-- The token that begins with a character. -/
def fetchFrom (c : Char) (reader : Reader) : Except Fault Reader :=
  let cursor := reader.cursor
  if cursor.column == 0 && c == '%' then do
    let reader ← reader.endBlocks
    return reader.pushAt (← reader.located (readDirective reader.cursor))
  else if cursor.isMarker '-' then do
    return (← reader.endBlocks).push .documentStart |>.skip 3
  else if cursor.isMarker '.' then do
    return (← reader.endBlocks).push .documentEnd |>.skip 3
  else
    let stands := reader.inFlow || cursor.isSpaceAt 1
    match c with
    | '[' => reader.openFlow .flowSequenceStart
    | '\x7b' => reader.openFlow .flowMappingStart
    | ']' => reader.closeFlow .flowSequenceEnd
    | '\x7d' => reader.closeFlow .flowMappingEnd
    | ',' => do
      let reader ← reader.removeKey
      return (reader.allowKey true).push .flowEntry |>.skip 1
    | '*' => reader.fetchWith (readAnchor true)
    | '&' => reader.fetchWith (readAnchor false)
    | '!' => reader.fetchWith (readTag reader.inFlow)
    | '\'' | '"' => reader.fetchQuoted c
    | _ =>
      if c == '-' && cursor.isSpaceAt 1 then reader.fetchEntry
      else if c == '?' && stands then reader.fetchKey
      else if c == ':' && stands then reader.fetchValue
      else if c == '|' && !reader.inFlow then reader.fetchBlock false
      else if c == '>' && !reader.inFlow then reader.fetchBlock true
      else if reader.startsPlain c then reader.fetchPlain
      else fault "found character that cannot start any token" "while scanning for the next token"

/-- Reads on by at least one token. The end of the text counts as the beginning of a new line. -/
def fetch (reader : Reader) : Except Fault Reader := do
  let reader := reader.skipSpace (reader.cursor.rest.length + 1)
  let reader ← reader.dropStale
  let reader := reader.unroll reader.cursor.column
  match reader.cursor.head? with
  | some c => fetchFrom c reader
  | none => return (← reader.endBlocks).push .streamEnd

/-- The tokens that can be handed on: those in front of the first that may still turn out to be a
key. -/
def settled (reader : Reader) : List Token :=
  let pending := reader.keys.filterMap fun key => key.map (·.token)
  reader.tokens.toList.take (pending.foldl min reader.tokens.size)

/-- Reads tokens up to the end or the first fault. -/
def readAll : Nat → Reader → List Token
  | 0, reader => reader.settled
  | fuel + 1, reader =>
    match reader.fetch with
    | .error problem => reader.settled ++ [.fault problem]
    | .ok next =>
      match next.tokens.back? with
      | some .streamEnd => next.tokens.toList
      | _ => match next.dropStale with
        | .error problem => next.settled ++ [.fault problem]
        | .ok next => readAll fuel next

end Reader

/-- Whether a text begins with a byte order mark. -/
def isMarked (text : String) : Bool :=
  text.toList.head? == some (Char.ofNat 0xFEFF)

/-- The characters of a text without a byte order mark at its start. -/
def unmarked (text : String) : List Char :=
  if isMarked text then text.toList.drop 1 else text.toList

/-- Whether the first token of a text stands at its very start. -/
def beginsAtOnce (text : String) : Bool :=
  (unmarked text).head?.all fun c => !isBlank c && !isBreak c && c != '#'

/-- The tokens of a text. A byte order mark at its start is passed over. -/
def tokens (text : String) : List Token :=
  let marked := isMarked text
  let cs := unmarked text
  match unreadable? marked cs with
  | some n =>
    [.fault ("control characters are not allowed" ++
      if n = 0 then "" else " at position " ++ toString n)]
  | none => Reader.readAll (cs.length + 2) { cursor := { rest := cs } }

end MessageSchema.Yaml
