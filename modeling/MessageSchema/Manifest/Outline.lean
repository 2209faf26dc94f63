import MessageSchema.Document.Outline

/-!
# Outline of manifests

What a manifest may hold.

## Main definitions

* `Outline.manifest`: the outline.
-/

namespace MessageSchema.Outline

/-- A part that has to be there. -/
def requiredPart (name : String) (outline : Outline) (description : Option String := none) : Part :=
  { name, outline, description, required := true }

/-- A part that may be null or be left out. -/
def optionalPart (name : String) (outline : Outline) (description : Option String := none) : Part :=
  { name, outline := .optional outline, description }

/-- A list that is empty unless it is given. -/
def listPart (name : String) (item : Outline) (description : Option String := none) : Part :=
  { name, outline := .list item, description, default := some (.array []) }

/-- A file. -/
def fileShape : Shape :=
  .record none
    [requiredPart "path" .text (some "Path of the proto file, e.g. `users/v1/user.proto`"),
      { name := "package", outline := .text, default := some (.text "") },
      optionalPart "options" .anything
        (some "File-level schema options, e.g. `\x7bgenerate: true\x7d`"),
      listPart "messages" (.named "ManifestMessage"),
      listPart "enums" (.named "ManifestEnum")]

/-- A message. -/
def messageShape : Shape :=
  .record none
    [requiredPart "name" .text,
      optionalPart "comment" .text,
      optionalPart "options" .anything
        (some "Message-level schema options, e.g. `\x7bgenerate: false\x7d`"),
      listPart "fields" (.named "ManifestField"),
      listPart "messages" (.named "ManifestMessage") (some "Nested message types"),
      listPart "enums" (.named "ManifestEnum")]

/-- A field. -/
def fieldShape : Shape :=
  .record none
    [requiredPart "name" .text,
      optionalPart "number" (.whole "uint32" true)
        (some "Defaults to the field's 1-based position"),
      optionalPart "type" .text
        (some "Scalar keyword (`int32`, `string`, ...) or a message/enum name"),
      optionalPart "label" (.named "Label"),
      optionalPart "map" (.named "ManifestMap")
        (some "Declares a `map<key, value>` field instead of `type`"),
      optionalPart "oneof" .text (some "Name of the oneof group this field belongs to"),
      optionalPart "comment" .text,
      optionalPart "options" .anything
        (some "Field-level schema options, e.g. `\x7bmaxLength: 64\x7d`")]

/-- The types of a map. -/
def mapShape : Shape :=
  .record none [requiredPart "key" .text, requiredPart "value" .text]

/-- An enum. -/
def enumShape : Shape :=
  .record none
    [requiredPart "name" .text,
      optionalPart "comment" .text,
      requiredPart "values" (.list (.named "ManifestEnumValue"))]

/-- A value of an enum. -/
def enumValueShape : Shape :=
  .record none [requiredPart "name" .text, requiredPart "number" (.whole "int32" false)]

/-- A manifest with everything in it. -/
def manifest : Json :=
  document "Manifest"
    (.record (some "Top-level manifest document.")
      [listPart "targets" .text (some "File paths to generate for; empty means all files"),
        requiredPart "files" (.list (.named "ManifestFile"))])
    [("ManifestFile", fileShape),
      ("ManifestMessage", messageShape),
      ("ManifestField", fieldShape),
      ("ManifestMap", mapShape),
      ("ManifestEnum", enumShape),
      ("ManifestEnumValue", enumValueShape),
      ("Label", .choice ["optional", "repeated"])]

end MessageSchema.Outline
