import MessageSchema.Document.Outline

/-!
# Outlines of option overlays

What the options of a file, a message and a field may hold.

## Main definitions

* `Outline.fileOptions`, `Outline.messageOptions`, `Outline.fieldOptions`: the outlines.
-/

namespace MessageSchema.Outline

/-- The part that says whether something is generated. -/
def generatePart (description : Option String) : Part :=
  { name := "generate", outline := .boolean, description, default := some (.boolean false) }

/-- The options of a file. -/
def fileOptions : Json :=
  document "FileSchemaOptions"
    (.record (some "File-level generation control.")
      [generatePart
        (some "Generate schemas for every message in the file unless a message opts out")]) []

/-- The options of a message. -/
def messageOptions : Json :=
  document "MessageSchemaOptions"
    (.record (some "Message-level generation control; overrides the file default.")
      [generatePart none]) []

/-- A part of the options of a field. Its default says nothing and is not shown. -/
def optionPart (name : String) (outline : Outline) (description : Option String := none) : Part :=
  { name, outline, description }

/-- A count. -/
def count : Outline :=
  .whole "uint64" true

/-- The options of a field. -/
def fieldOptions : Json :=
  document "FieldSchemaOptions"
    (.record (some "Field-level overrides and validation constraints.")
      [optionPart "ignore" .boolean (some "Leave the field out of the schema entirely"),
        optionPart "title" .text (some "Replaces the comment-derived title"),
        optionPart "description" .text (some "Replaces the comment-derived description"),
        optionPart "format" .text,
        optionPart "pattern" .text,
        optionPart "minimum" (.real "double"),
        optionPart "maximum" (.real "double"),
        optionPart "exclusiveMinimum" .boolean,
        optionPart "exclusiveMaximum" .boolean,
        optionPart "minLength" count,
        optionPart "maxLength" count,
        optionPart "minItems" count,
        optionPart "maxItems" count,
        optionPart "uniqueItems" .boolean,
        optionPart "minProperties" count,
        optionPart "maxProperties" count,
        optionPart "contentEncoding" .text (some "Defaults to `base64` for bytes fields"),
        optionPart "contentMediaType" .text]) []

end MessageSchema.Outline
