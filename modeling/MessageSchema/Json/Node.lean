import MessageSchema.Binary64.Layout
import MessageSchema.Binary64.Rounding
import MessageSchema.Document.Node
import MessageSchema.Json.Reading

/-!
# JSON values and JSON text as documents

A record may be written as an object or as an array of its parts, and a choice as its name or as
an object with the name for its only key and null below it. Text is read as far as it goes: what
it says wrongly in front of its first fault is found before the fault.

## Main definitions

* `Json.found`: how a value is named where something else is wanted.
* `Json.Unread`: a part of a text that is still to be read, and how deep it may nest.
-/

namespace MessageSchema.Json

/-- A value as it is named where something else is wanted. -/
def found : Json → Found
  | .null => .nothing "null"
  | .boolean b => .boolean b
  | .integer n => .integer n
  | .real x => .real (NumberLayout.document.text x)
  | .text s => .text s
  | .array _ => .sequence
  | .object _ => .mapping

/-- Rejects a value where something else is wanted. -/
def mismatched {α : Type} (expected : String) (value : Json) : Decoded α :=
  Decoded.reject (.wrongType value.found expected)

/-- A value taken for a text. -/
def readText : Json → Decoded String
  | .text s => .ok s
  | value => mismatched "a string" value

/-- A value taken for a truth value. -/
def readBoolean : Json → Decoded Bool
  | .boolean b => .ok b
  | value => mismatched "a boolean" value

/-- A value taken for a whole number. -/
def readInteger (expected : String) : Json → Decoded Int
  | .integer n => .ok n
  | value => mismatched expected value

/-- A value taken for a binary64 number; an integer is rounded. -/
def readReal : Json → Decoded Binary64
  | .real x => .ok x
  | value@(.integer n) => match Binary64.ofInt n with
    | some x => .ok x
    | none => mismatched "f64" value
  | value => mismatched "f64" value

/-- A value taken for a list. -/
def readItems : Json → Decoded (List Json)
  | .array items => .ok items
  | value => mismatched "a sequence" value

/-- A value taken for a record. -/
def readParts (expected : String) : Json → Decoded (Parts Json)
  | .object members => .ok (.named (members.map fun (key, value) => ⟨.ok key, .key key, value⟩))
  | .array items =>
    .ok (.inOrder items (.ofCause (.wrongLength items.length "fewer elements in array")))
  | value => mismatched expected value

/-- A value taken for a choice. -/
def readChoice (names : List String) : Json → Decoded String
  | .text name => Decoded.known names name
  | .object [(name, value)] => do
    let name ← Decoded.known names name
    match value with
    | .null => return name
    | value => mismatched "unit" value
  | .object _ => Decoded.reject (.wrongValue .mapping "map with a single key")
  | value => mismatched "string or map" value

/-- Whether a value is null. -/
def isNull : Json → Bool
  | .null => true
  | _ => false

instance : Node Json where
  text := readText
  boolean := readBoolean
  integer _ := readInteger
  real := readReal
  items := readItems
  parts := readParts
  choice := readChoice
  isAbsent value := .ok value.isNull
  value := .ok
  pass _ := .ok ()
  depth := Json.depth

/-- A part of a text that is still to be read, and how many more containers may nest in it. -/
structure Unread where
  reading : Reading
  room : Nat

namespace Unread

/-- A whole text. -/
def ofText (text : String) : Unread × Bool :=
  let (reading, whole) := Reading.ofText text
  (⟨reading, depthLimit⟩, whole)

/-- Rejects a text that is not well formed. -/
def fault {α : Type} : Decoded α :=
  Decoded.reject (.illFormed "malformed JSON")

/-- What a part is where something else is wanted. A container is known by its opening bracket. -/
def found (part : Unread) : Decoded Found :=
  match part.reading with
  | .scalar value => .ok value.found
  | .array _ => .ok .sequence
  | .object _ => .ok .mapping
  | .valueless | .broken => fault

/-- A part that is no container, read as its value. -/
def readScalar {α : Type} (expected : String) (read : Json → Decoded α) (part : Unread) :
    Decoded α :=
  match part.reading with
  | .scalar value => read value
  | _ => do Decoded.reject (.wrongType (← part.found) expected)

/-- The items of a list. -/
def readItems (part : Unread) : Decoded (List Unread) :=
  match part.reading with
  | .array items =>
    if part.room = 0 then fault else .ok (items.map (⟨·, part.room - 1⟩))
  | _ => do Decoded.reject (.wrongType (← part.found) "a sequence")

/-- The parts of a record. -/
def readParts (expected : String) (part : Unread) : Decoded (Parts Unread) :=
  match part.reading with
  | .object members =>
    if part.room = 0 then fault
    else .ok (.named (members.map fun (key, value) =>
      ⟨key.elim fault .ok, .key (key.getD ""), ⟨value, part.room - 1⟩⟩))
  | .array items =>
    if part.room = 0 then fault
    else .ok (.inOrder (items.map (⟨·, part.room - 1⟩))
      (.ofCause (.illFormed "trailing characters")))
  | _ => do Decoded.reject (.wrongType (← part.found) expected)

/-- The value of a part. -/
def readValue (part : Unread) : Decoded Json :=
  (part.reading.value? part.room).elim fault .ok

instance : Node Unread where
  text := readScalar "a string" readText
  boolean := readScalar "a boolean" readBoolean
  integer _ expected := readScalar expected (readInteger expected)
  real := readScalar "f64" readReal
  items := readItems
  parts := readParts
  choice names part := do readChoice names (← part.readValue)
  isAbsent part := match part.reading with
    | .scalar value => .ok value.isNull
    | _ => .ok false
  value := readValue
  pass part := if part.reading.isWhole then .ok () else fault
  depth part := part.room + 1

end Unread

end MessageSchema.Json
