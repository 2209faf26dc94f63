import MessageSchema.Overlay.Resolve
import MessageSchema.Property.OfField
import MessageSchema.Schema.References

/-!
# The schema of one message

The schema of a message is an object with a property for each field that is not ignored. A field is
required if an instance has to have it; of the members of a oneof group exactly one is. Fields that
hold messages refer to them.

Comments give title and description. The first blank line of a comment divides the two; a comment
without a blank line is all description.

## Main definitions

* `Comment.titleAndDescription`: the two parts of a comment.
* `Shape.property?`: the node of a field, unless the field is ignored.
* `Shape.groups`: the members of the oneof groups.
* `Shape.ofMessage`: the schema of a message.
-/

namespace MessageSchema.Comment

/-- A blank line between lines that end in a line feed. -/
def lineFeedGap : List Char := ['\n', '\n']

/-- A blank line between lines that end in a carriage return and a line feed. -/
def carriageReturnGap : List Char := ['\r', '\n', '\r', '\n']

/-- The parts of a text before and after its first blank line. -/
def splitParagraph? (cs : List Char) : Option (List Char × List Char) :=
  (Text.splitFirst? lineFeedGap cs).or (Text.splitFirst? carriageReturnGap cs)

/-- The title and the description of a comment, either of which may be empty. -/
def titleAndDescription (comment : String) : String × String :=
  let text := Text.trim comment.toList
  match splitParagraph? text with
  | some (title, description) =>
    (String.ofList (Text.trim title), String.ofList (Text.trim description))
  | none => ("", String.ofList text)

end MessageSchema.Comment

namespace MessageSchema.Shape

/-- Fails on the first reference in a node to a type that is not selected. -/
def checkReferences (selected : List String) (owner : Message) (field : Field) (node : Schema) :
    Except SchemaError Unit :=
  let targets := node.references.map fun ref => (Schema.refName? ref).getD ref
  match targets.find? (!selected.contains ·) with
  | some target => .error (Pool.unresolved owner field target)
  | none => .ok ()

/-- The node of a property. A single message without options is a reference and nothing else, so
that a comment on the field does not describe the message. -/
def node (options : Option FieldOptions) (property : Property) : Schema :=
  match options, property.target? with
  | none, some target => .reference target
  | none, none => property.toSchema
  | some o, _ => (property.apply o).toSchema

/-- The node of a field, unless the field is ignored. -/
def property? (pool : Pool) (selected : List String) (owner : Message) (field : Field) :
    Except SchemaError (Option Schema) := do
  let options ← field.options owner
  if options.any (·.ignore) then return none
  let (title, description) := Comment.titleAndDescription field.comment
  let property ← Property.ofField pool owner field title description
  let schema := node options property
  checkReferences selected owner field schema
  return some schema

/-- The fields that are not ignored, each with its node. -/
def entriesOf (pool : Pool) (selected : List String) (owner : Message) :
    List Field → Except SchemaError (List (Field × Schema))
  | [] => .ok []
  | field :: rest => do
    let schema ← property? pool selected owner field
    let others ← entriesOf pool selected owner rest
    return (schema.map (field, ·)).toList ++ others

/-- The members of each oneof group among several fields, by the name of the group. -/
def groups (message : Message) (fields : List Field) : Dictionary (List String) :=
  fields.foldl (fun found field => match message.realOneof? field with
    | some group => found.insert group.name ((found.get? group.name).getD [] ++ [field.name])
    | none => found) []

/-- The alternatives of which one holds: that one of the members is present. -/
def exclusive (members : List String) : List Schema :=
  members.map Schema.requiring

/-- The alternatives for a single group. -/
def alternatives : Dictionary (List String) → List Schema
  | [(_, members)] => exclusive members
  | _ => []

/-- The joint requirements for several groups, each with its alternatives. -/
def jointly : Dictionary (List String) → List Schema
  | [] | [_] => []
  | found => found.map fun (_, members) => { oneOf := exclusive members }

/-- The schema of a message. -/
def ofMessage (pool : Pool) (selected : List String) (message : Message) :
    Except SchemaError Schema := do
  message.checkFieldKinds
  let entries ← entriesOf pool selected message message.fields
  let (title, description) := Comment.titleAndDescription message.comment
  let fields := entries.map (·.1)
  let found := groups message fields
  return { Schema.typed .object with
    title := givenText title
    description := givenText description
    properties := Dictionary.ofList (entries.map fun (field, schema) => (field.name, schema))
    required := (fields.filter (·.isRequired)).map (·.name)
    oneOf := alternatives found
    allOf := jointly found }

end MessageSchema.Shape
