import MessageSchema.Document.Node

/-!
# Records in documents

A record is read from named parts or, where the notation allows it, from its parts in the order of
its fields. One table of fields serves both.

## Main definitions

* `Slot`: a field of a record: its name, whether it may be left out, and how it is read.
* `Record`: the fields in order, and what holds before any of them is read.
* `Record.decode`: the record that a node gives.
-/

namespace MessageSchema

/-- Whether a field may be left out. A field with a default may be left out everywhere, an optional
one only among named parts. -/
inductive Presence
  | required
  | optional
  | defaulted
deriving DecidableEq

/-- A field of a record of type `ρ`, read from nodes of type `ν`. -/
structure Slot (ν ρ : Type) where
  name : String
  presence : Presence
  /-- The change that the value of the field makes to the record. -/
  read : ν → Decoded (ρ → ρ)
  /-- Other names of the field. -/
  aliases : List String := []

namespace Slot

variable {ν ρ α : Type}

/-- A field that has to be there. -/
def required (name : String) (read : ν → Decoded α) (set : α → ρ → ρ) : Slot ν ρ :=
  ⟨name, .required, fun node => set <$> read node, []⟩

/-- A field that keeps its default when it is left out. -/
def defaulted (name : String) (read : ν → Decoded α) (set : α → ρ → ρ) : Slot ν ρ :=
  ⟨name, .defaulted, fun node => set <$> read node, []⟩

/-- All names of the field. -/
def names (slot : Slot ν ρ) : List String :=
  slot.name :: slot.aliases

end Slot

/-- The fields of a record in order. -/
structure Record (ν ρ : Type) where
  name : String
  /-- The record before any field is read. -/
  start : ρ
  slots : List (Slot ν ρ)
  /-- Whether other names than those of the fields are rejected. -/
  closed : Bool := false

namespace Record

variable {ν ρ : Type} [Node ν]

/-- The names of all fields, each followed by its other names. -/
def names (record : Record ν ρ) : List String :=
  record.slots.flatMap Slot.names

/-- The field with a name. -/
def slot? (record : Record ν ρ) (name : String) : Option (Slot ν ρ) :=
  record.slots.find? (·.names.contains name)

/-- Reads named parts in turn. The names of the fields seen so far are kept to reject a second
part for one of them. -/
def readNamed (record : Record ν ρ) :
    List (Entry ν) → List String → ρ → Decoded (List String × ρ)
  | [], seen, value => .ok (seen, value)
  | entry :: rest, seen, value => do
    let name ← entry.name
    match record.slot? name with
    | none =>
      if record.closed then Decoded.reject (.unknownField name record.names)
      else
        Node.pass entry.node
        readNamed record rest seen value
    | some slot =>
      if seen.contains slot.name then Decoded.reject (.duplicateField slot.name)
      else
        let change ← (slot.read entry.node).under entry.step
        readNamed record rest (slot.name :: seen) (change value)

/-- Reads parts in the order of the fields. -/
def readInOrder (wanted : String) (surplus : Rejection) :
    List (Slot ν ρ) → List ν → Nat → ρ → Decoded ρ
  | [], [], _, value => .ok value
  | [], _ :: _, _, _ => .error surplus
  | slot :: slots, [], n, value =>
    if slot.presence = .defaulted then readInOrder wanted surplus slots [] (n + 1) value
    else Decoded.reject (.wrongLength n wanted)
  | slot :: slots, item :: rest, n, value => do
    let change ← (slot.read item).under (.index n)
    readInOrder wanted surplus slots rest (n + 1) (change value)

/-- The record that a node gives. -/
def decode (record : Record ν ρ) (node : ν) : Decoded ρ :=
  Decoded.here do
    let expected := "struct " ++ record.name
    match ← Node.parts expected node with
    | .named entries =>
      let (seen, value) ← record.readNamed entries [] record.start
      let missing := record.slots.find? fun slot =>
        slot.presence = .required && !seen.contains slot.name
      match missing with
      | some slot => Decoded.reject (.missingField slot.name)
      | none => return value
    | .inOrder items surplus =>
      let count := record.slots.length
      let wanted := expected ++ " with " ++ toString count ++
        if count = 1 then " element" else " elements"
      readInOrder wanted surplus record.slots items 0 record.start

end Record

end MessageSchema
