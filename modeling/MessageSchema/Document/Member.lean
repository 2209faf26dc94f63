import MessageSchema.Document.Record
import MessageSchema.Json.Node

/-!
# Records that are read and written

A member is a field of a record together with the way its value is written, so that one table of
members fixes both the record that an object gives and the object of a record.

## Main definitions

* `Member`: a field that is read and written.
* `Member.record`, `Member.encode`: the two directions of a table of members.
-/

namespace MessageSchema

/-- A field of a record of type `ρ` that is read from JSON and written to it. -/
structure Member (ρ : Type) extends Slot Json ρ where
  /-- What is written for the field, if anything. -/
  write : ρ → Option Json

namespace Member

variable {ρ α : Type}

/-- A field that has to be there and is always written. -/
def required (name : String) (read : Json → Decoded α) (write : α → Json) (get : ρ → α)
    (set : α → ρ → ρ) : Member ρ where
  toSlot := .required name read set
  write r := some (write (get r))

/-- A field that has a default and is always written. -/
def defaulted (name : String) (read : Json → Decoded α) (write : α → Json) (get : ρ → α)
    (set : α → ρ → ρ) : Member ρ where
  toSlot := .defaulted name read set
  write r := some (write (get r))

/-- A field that has a default and is written where it matters. -/
def sparse (name : String) (read : Json → Decoded α) (write : α → Option Json) (get : ρ → α)
    (set : α → ρ → ρ) : Member ρ where
  toSlot := .defaulted name read set
  write r := write (get r)

/-- A field without a default that may be left out, and is where it has no value. -/
def optional (name : String) (read : Json → Decoded α) (write : α → Json) (get : ρ → Option α)
    (set : Option α → ρ → ρ) : Member ρ where
  toSlot := ⟨name, .optional, fun node => set <$> Node.optional read node, []⟩
  write r := (get r).map write

/-- A list, left out where it is empty. -/
def list (name : String) (read : Json → Decoded α) (write : α → Json) (get : ρ → List α)
    (set : List α → ρ → ρ) : Member ρ :=
  .sparse name (Node.list read)
    (fun items => if items.isEmpty then none else some (.array (items.map write))) get set

/-- A dictionary, left out where it is empty. -/
def dictionary (name : String) (read : Json → Decoded α) (write : α → Json)
    (get : ρ → Dictionary α) (set : Dictionary α → ρ → ρ) : Member ρ :=
  .sparse name (Node.dictionary read)
    (fun entries => if entries.isEmpty then none
      else some (.object (entries.map fun (key, value) => (key, write value)))) get set

/-- The record that is read by a table of members. -/
def record (name : String) (start : ρ) (members : List (Member ρ)) : Record Json ρ :=
  { name, start, slots := members.map (·.toSlot) }

/-- The object that a table of members writes. -/
def encode (members : List (Member ρ)) (r : ρ) : Json :=
  .object (members.filterMap fun member => (member.write r).map (member.name, ·))

end Member

end MessageSchema
