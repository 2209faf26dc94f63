import MessageSchema.Document.Record

/-!
# Manifests

A manifest is a short description of message definitions, written by hand. Types of fields are given
by keyword or by name, map fields by the types of their keys and values. Names that a manifest does
not know are rejected everywhere.

## Main definitions

* `Manifest`: the files of a manifest.
* `Manifest.read`: reads a manifest from a document of any notation.
-/

namespace MessageSchema

namespace Manifest

/-- What may be said about the presence or the number of the values of a field. -/
inductive Label
  | optional
  | repeated
deriving DecidableEq, Inhabited

/-- A value of an enum. -/
structure EnumValueSpec where
  name : String := ""
  number : Int := 0

/-- An enum. -/
structure EnumSpec where
  name : String := ""
  comment : Option String := none
  values : List EnumValueSpec := []

/-- The types of the keys and values of a map. -/
structure MapSpec where
  key : String := ""
  value : String := ""

/-- A field. -/
structure FieldSpec where
  name : String := ""
  /-- Counts from one by position unless it is given. -/
  number : Option Nat := none
  type : Option String := none
  label : Option Label := none
  map : Option MapSpec := none
  oneof : Option String := none
  comment : Option String := none
  options : Option Json := none

/-- A message. -/
structure MessageSpec where
  name : String := ""
  comment : Option String := none
  options : Option Json := none
  fields : List FieldSpec := []
  messages : List MessageSpec := []
  enums : List EnumSpec := []
deriving Inhabited

/-- A file. -/
structure FileSpec where
  path : String := ""
  package : String := ""
  options : Option Json := none
  messages : List MessageSpec := []
  enums : List EnumSpec := []

end Manifest

/-- A manifest. Without targets every file is a target. -/
structure Manifest where
  targets : List String := []
  files : List Manifest.FileSpec := []

namespace Manifest

variable {ν ρ α : Type} [Node ν]

/-- A record that has no other fields than those that are listed. -/
def closedRecord (name : String) (start : ρ) (slots : List (Slot ν ρ)) : ν → Decoded ρ :=
  ({ name, start, slots, closed := true } : Record ν ρ).decode

/-- A text that may be left out or be absent. -/
def optionalText (name : String) (set : Option String → ρ → ρ) : Slot ν ρ :=
  .defaulted name (Node.optional Node.text) set

/-- Schema options, which may be left out or be absent. -/
def optionsSlot (set : Option Json → ρ → ρ) : Slot ν ρ :=
  .defaulted "options" (Node.optional Node.value) set

/-- A list that may be left out. -/
def listSlot (name : String) (read : ν → Decoded α) (set : List α → ρ → ρ) : Slot ν ρ :=
  .defaulted name (Node.list read) set

/-- Reads a label. -/
def Label.read : ν → Decoded Label :=
  Node.oneOf [("optional", .optional), ("repeated", .repeated)]

/-- Reads a value of an enum. -/
def EnumValueSpec.read : ν → Decoded EnumValueSpec :=
  closedRecord "ManifestEnumValue" {}
    [.required "name" Node.text fun x v => { v with name := x },
      .required "number" Node.integer32 fun x v => { v with number := x }]

/-- Reads an enum. -/
def EnumSpec.read : ν → Decoded EnumSpec :=
  closedRecord "ManifestEnum" {}
    [.required "name" Node.text fun x e => { e with name := x },
      optionalText "comment" fun x e => { e with comment := x },
      .required "values" (Node.list EnumValueSpec.read) fun x e => { e with values := x }]

/-- Reads the types of a map. -/
def MapSpec.read : ν → Decoded MapSpec :=
  closedRecord "ManifestMap" {}
    [.required "key" Node.text fun x m => { m with key := x },
      .required "value" Node.text fun x m => { m with value := x }]

/-- Reads a field. -/
def FieldSpec.read : ν → Decoded FieldSpec :=
  closedRecord "ManifestField" {}
    [.required "name" Node.text fun x f => { f with name := x },
      .defaulted "number" (Node.optional Node.natural32) fun x f => { f with number := x },
      optionalText "type" fun x f => { f with type := x },
      .defaulted "label" (Node.optional Label.read) fun x f => { f with label := x },
      .defaulted "map" (Node.optional MapSpec.read) fun x f => { f with map := x },
      optionalText "oneof" fun x f => { f with oneof := x },
      optionalText "comment" fun x f => { f with comment := x },
      optionsSlot fun x f => { f with options := x }]

/-- Reads a message, with messages nested in it up to a number of levels. -/
def MessageSpec.readWithin : Nat → ν → Decoded MessageSpec
  | 0, _ => Decoded.reject .tooDeep
  | levels + 1, node =>
    closedRecord "ManifestMessage" {}
      [.required "name" Node.text fun x m => { m with name := x },
        optionalText "comment" fun x m => { m with comment := x },
        optionsSlot fun x m => { m with options := x },
        listSlot "fields" FieldSpec.read fun x m => { m with fields := x },
        listSlot "messages" (readWithin levels) fun x m => { m with messages := x },
        listSlot "enums" EnumSpec.read fun x m => { m with enums := x }] node

/-- Reads a message. No message nests deeper than the containers around it. -/
def MessageSpec.read (node : ν) : Decoded MessageSpec :=
  readWithin (Node.depth node) node

/-- Reads a file. -/
def FileSpec.read : ν → Decoded FileSpec :=
  closedRecord "ManifestFile" {}
    [.required "path" Node.text fun x f => { f with path := x },
      .defaulted "package" Node.text fun x f => { f with package := x },
      optionsSlot fun x f => { f with options := x },
      listSlot "messages" MessageSpec.read fun x f => { f with messages := x },
      listSlot "enums" EnumSpec.read fun x f => { f with enums := x }]

/-- Reads a manifest. -/
def read : ν → Decoded Manifest :=
  closedRecord "Manifest" {}
    [listSlot "targets" Node.text fun x m => { m with targets := x },
      .required "files" (Node.list FileSpec.read) fun x m => { m with files := x }]

end Manifest

end MessageSchema
