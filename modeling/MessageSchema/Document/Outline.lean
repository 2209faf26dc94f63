import MessageSchema.Json.Value
import MessageSchema.Text.Cut

/-!
# Outlines of records

An outline describes for editors and validators what a document may hold: a schema for each record
with the schemas of the records that it refers to by name. Outlines are written in draft 7 of the
schema language.

## Main definitions

* `Outline`: what is said about the values of a field.
* `Outline.Part`, `Outline.Shape`: a field of a record, and a record.
* `Outline.document`: the outline of a record by itself.
-/

namespace MessageSchema

/-- What is said about the values of a field. -/
inductive Outline where
  | anything
  | boolean
  | text
  /-- A whole number of a format, with its least value if the format has no negative ones. -/
  | whole (format : String) (isNatural : Bool)
  | real (format : String)
  | list (item : Outline)
  /-- A record with a name of its own. -/
  | named (name : String)
  /-- A value that may be null. -/
  | optional (value : Outline)

namespace Outline

/-- The value of the key for types. -/
def typed (name : String) : List (String × Json) :=
  [("type", .text name)]

/-- The members of a reference to a record. -/
def reference (name : String) : List (String × Json) :=
  [("$ref", .text ("#/definitions/" ++ name))]

/-- Members that allow null besides what they allow. -/
def orNull (members : List (String × Json)) : List (String × Json) :=
  match members with
  | ("type", .text name) :: rest => ("type", .array [.text name, .text "null"]) :: rest
  | [] => []
  | members => [("anyOf", .array [.object members, .object (typed "null")])]

/-- The members of an outline. -/
def members : Outline → List (String × Json)
  | anything => []
  | boolean => typed "boolean"
  | text => typed "string"
  | whole format isNatural =>
    typed "integer" ++ ("format", .text format) ::
      if isNatural then [("minimum", .real (.zero false))] else []
  | real format => typed "number" ++ [("format", .text format)]
  | list item => typed "array" ++ [("items", .object (members item))]
  | named name => reference name
  | optional value => orNull (members value)

/-- A field of a record. -/
structure Part where
  name : String
  outline : Outline
  description : Option String := none
  /-- The default that is shown. -/
  default : Option Json := none
  required : Bool := false

/-- A record, or a choice between names. -/
inductive Shape where
  | record (description : Option String) (parts : List Part)
  | choice (names : List String)

/-- The members for a description, if there is one. -/
def described (description : Option String) : List (String × Json) :=
  description.toList.map fun text => ("description", .text text)

/-- A field as a property. -/
def Part.property (part : Part) : String × Json :=
  (part.name, .object (described part.description ++
    part.default.toList.map (fun value => ("default", value)) ++ part.outline.members))

/-- The members of a record or a choice. -/
def Shape.members : Shape → List (String × Json)
  | .choice names => typed "string" ++ [("enum", Json.texts names)]
  | .record description parts =>
    let required := (parts.filter (·.required)).map (·.name)
    described description ++ typed "object" ++
      (if required.isEmpty then []
        else [("required", Json.texts (Dictionary.keys (.ofList (required.map (·, ())))))]) ++
      [("properties", .object (Dictionary.ofList (parts.map Part.property))),
        ("additionalProperties", .boolean false)]

/-- The dialect of outlines. -/
def dialect : String :=
  Text.joined "/" ["http:", "", "json-schema.org", "draft-07", "schema#"]

/-- The outline of a record, with those that it refers to. -/
def document (name : String) (shape : Shape) (definitions : List (String × Shape)) : Json :=
  .object ([("$schema", .text dialect), ("title", .text name)] ++ shape.members ++
    if definitions.isEmpty then []
    else [("definitions", .object (Dictionary.ofList
      (definitions.map fun (name, shape) => (name, .object shape.members))))])

end Outline

end MessageSchema
