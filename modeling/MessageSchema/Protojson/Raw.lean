import MessageSchema.Document.Record
import MessageSchema.Json.Node

/-!
# Descriptor sets as they are written in JSON

The part of a descriptor set that matters here, read from text. Names of members are in camel case,
everything may be left out, and members that do not matter are passed over.

## Main definitions

* `RawFile`, `RawMessage`, `RawField`, `RawEnum`: the declarations as they are written.
* `RawSet.ofText`: the descriptor set of a text.
-/

namespace MessageSchema.Protojson

open Json (Unread)

/-- A value of an enum. -/
structure RawEnumValue where
  name : String := ""
  number : Int := 0

/-- An enum. -/
structure RawEnum where
  name : String := ""
  values : List RawEnumValue := []

/-- A field. Label and type may be names or numbers. -/
structure RawField where
  name : String := ""
  number : Nat := 0
  label : Option Json := none
  type : Option Json := none
  typeName : Option String := none
  oneofIndex : Option Nat := none
  proto3Optional : Bool := false
  options : Option Json := none

/-- A message. -/
structure RawMessage where
  name : String := ""
  fields : List RawField := []
  nested : List RawMessage := []
  enums : List RawEnum := []
  oneofs : List String := []
  options : Option Json := none
deriving Inhabited

/-- A place in a file and the comment in front of it. -/
structure RawLocation where
  path : List Int := []
  leading : Option String := none

/-- A file. -/
structure RawFile where
  name : String := ""
  package : String := ""
  messages : List RawMessage := []
  enums : List RawEnum := []
  options : Option Json := none
  locations : List RawLocation := []
  syntaxName : String := ""

/-- A descriptor set. Files are listed under two names, and targets may be named. -/
structure RawSet where
  files : List RawFile := []
  protoFiles : List RawFile := []
  targets : List String := []

/-- The reader of a record all of whose fields have defaults. -/
def reader {ρ : Type} (name : String) (start : ρ) (slots : List (Slot Unread ρ)) :
    Unread → Decoded ρ :=
  { name, start, slots : Record Unread ρ }.decode

/-- A text that may be left out. -/
def textSlot {ρ : Type} (name : String) (set : String → ρ → ρ) : Slot Unread ρ :=
  .defaulted name Node.text set

/-- A list that may be left out. -/
def listSlot {ρ α : Type} (name : String) (read : Unread → Decoded α) (set : List α → ρ → ρ) :
    Slot Unread ρ :=
  .defaulted name (Node.list read) set

/-- A value of any kind that may be left out. -/
def valueSlot {ρ : Type} (name : String) (set : Option Json → ρ → ρ) : Slot Unread ρ :=
  .defaulted name (Node.optional Node.value) set

/-- Reads a value of an enum. -/
def RawEnumValue.read : Unread → Decoded RawEnumValue :=
  reader "RawEnumValue" {}
    [textSlot "name" fun x v => { v with name := x },
      .defaulted "number" Node.integer32 fun x v => { v with number := x }]

/-- Reads an enum. -/
def RawEnum.read : Unread → Decoded RawEnum :=
  reader "RawEnum" {}
    [textSlot "name" fun x e => { e with name := x },
      listSlot "value" RawEnumValue.read fun x e => { e with values := x }]

/-- Reads a field. -/
def RawField.read : Unread → Decoded RawField :=
  reader "RawField" {}
    [textSlot "name" fun x f => { f with name := x },
      .defaulted "number" Node.natural32 fun x f => { f with number := x },
      valueSlot "label" fun x f => { f with label := x },
      valueSlot "type" fun x f => { f with type := x },
      .defaulted "typeName" (Node.optional Node.text) fun x f => { f with typeName := x },
      .defaulted "oneofIndex" (Node.optional Node.position) fun x f => { f with oneofIndex := x },
      .defaulted "proto3Optional" Node.boolean fun x f => { f with proto3Optional := x },
      valueSlot "options" fun x f => { f with options := x }]

/-- Reads the name of a oneof group. -/
def readOneof : Unread → Decoded String :=
  reader "RawOneof" "" [textSlot "name" fun x _ => x]

/-- Reads a message, with messages nested in it up to a number of levels. -/
def RawMessage.readWithin : Nat → Unread → Decoded RawMessage
  | 0, _ => Decoded.reject .tooDeep
  | levels + 1, node =>
    reader "RawMessage" {}
      [textSlot "name" fun x m => { m with name := x },
        listSlot "field" RawField.read fun x m => { m with fields := x },
        listSlot "nestedType" (readWithin levels) fun x m => { m with nested := x },
        listSlot "enumType" RawEnum.read fun x m => { m with enums := x },
        listSlot "oneofDecl" readOneof fun x m => { m with oneofs := x },
        valueSlot "options" fun x m => { m with options := x }] node

/-- Reads a message. No message nests deeper than the containers around it. -/
def RawMessage.read (node : Unread) : Decoded RawMessage :=
  readWithin (Node.depth node) node

/-- Reads a place with its comment. -/
def RawLocation.read : Unread → Decoded RawLocation :=
  reader "RawLocation" {}
    [listSlot "path" Node.integer32 fun x l => { l with path := x },
      .defaulted "leadingComments" (Node.optional Node.text) fun x l => { l with leading := x }]

/-- Reads the places of a file. -/
def readLocations : Unread → Decoded (List RawLocation) :=
  reader "RawSourceCodeInfo" [] [listSlot "location" RawLocation.read fun x _ => x]

/-- Reads a file. -/
def RawFile.read : Unread → Decoded RawFile :=
  reader "RawFile" {}
    [textSlot "name" fun x f => { f with name := x },
      textSlot "package" fun x f => { f with package := x },
      listSlot "messageType" RawMessage.read fun x f => { f with messages := x },
      listSlot "enumType" RawEnum.read fun x f => { f with enums := x },
      valueSlot "options" fun x f => { f with options := x },
      .defaulted "sourceCodeInfo" (Node.optional readLocations)
        fun x f => { f with locations := x.getD [] },
      textSlot "syntax" fun x f => { f with syntaxName := x }]

/-- Reads a descriptor set. -/
def RawSet.read : Unread → Decoded RawSet :=
  reader "RawDescriptorSet" {}
    [listSlot "file" RawFile.read fun x s => { s with files := x },
      listSlot "protoFile" RawFile.read fun x s => { s with protoFiles := x },
      listSlot "fileToGenerate" Node.text fun x s => { s with targets := x }]

/-- The descriptor set of a text, behind which nothing may follow. -/
def RawSet.ofText (text : String) : Decoded RawSet := do
  let (node, whole) := Unread.ofText text
  let set ← RawSet.read node
  if whole then return set else Unread.fault

end MessageSchema.Protojson
