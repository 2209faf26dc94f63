import MessageSchema.Descriptor.Set
import MessageSchema.Json.Printer
import MessageSchema.Protojson.Raw

/-!
# Descriptors of a descriptor set in JSON

The declarations of a descriptor set as descriptors. Comments are kept apart from the declarations,
under paths that lead to them by field numbers and positions. A repeated field whose type is a map
entry nested in the same message is a map. Schema options stand in the options of a declaration,
under the bracketed name of an extension.

## Main definitions

* `Protojson.LoadError`: why a text gives no set of descriptors.
* `Protojson.overlay?`: the schema options among the options of a declaration.
* `Protojson.fileOf`, `Protojson.messageOf`: the descriptors of a file and of a message.
* `Protojson.load`: the set of descriptors of a text.
-/

namespace MessageSchema.Protojson

/-- Why a text gives no set of descriptors. -/
inductive LoadError
  | rejected (rejection : Rejection)
  /-- A field names a oneof group that its message does not have. -/
  | groupOutOfRange (message field : String) (index : Nat)

/-- The wording of an error. -/
def LoadError.message : LoadError → String
  | .rejected rejection => rejection.cause.message
  | .groupOutOfRange message field index =>
    message ++ "." ++ field ++ ": oneofIndex " ++ toString index ++ " out of range"

/-- The schema options among the options of a declaration: those of the first extension, by name,
that is meant for the scope and has any. -/
def overlay? (scope : String) (options : Option Json) : Option Json :=
  match options with
  | some (.object members) =>
    members.findSome? fun (key, value) =>
      if (Text.stripStart? "[" key).isSome && (Text.stripEnd? ("." ++ scope ++ "]") key).isSome then
        (value.member? "jsonSchema").or (value.member? "json_schema")
      else none
  | _ => none

/-- The label of a field as a number. -/
def labelOf : Option Json → Option Int
  | some (.text "LABEL_OPTIONAL") => some 1
  | some (.text "LABEL_REQUIRED") => some 2
  | some (.text "LABEL_REPEATED") => some 3
  | some (.integer n) => if n < twoTo 63 then some n else none
  | _ => none

/-- The label of an optional field. -/
def optionalLabel : Int := 1

/-- The label of a repeated field. -/
def repeatedLabel : Int := 3

/-- The kind of a field, or its type as it is written. -/
def kindOf : Option Json → Except String FieldKind
  | some (.text s) => (FieldKind.ofName? s).elim (.error s) .ok
  | some (.integer n) => (FieldKind.ofCode? n).elim (.error (toString n)) .ok
  | some other => .error other.compact
  | none => .error "<missing>"

/-! ### Paths of declarations -/

/-- The path of a declaration inside another: the number of the field that holds it, and its
position there. -/
def pathInto (path : List Int) (number : Int) (position : Nat) : List Int :=
  path ++ [number, position]

/-- The field of a file that holds its messages. -/
def messagesOfFile : Int := 4

/-- The field of a file that holds its enums. -/
def enumsOfFile : Int := 5

/-- The field of a message that holds its fields. -/
def fieldsOfMessage : Int := 2

/-- The field of a message that holds the messages nested in it. -/
def nestedOfMessage : Int := 3

/-- The field of a message that holds its enums. -/
def enumsOfMessage : Int := 4

/-- What the declarations of a file have in common. -/
structure Context where
  path : String
  locations : List RawLocation
  /-- Whether optional fields are told from others by their label alone. -/
  proto2 : Bool

/-- The comment at a path: the last one that is given for it. -/
def Context.commentAt (context : Context) (path : List Int) : String :=
  let found := context.locations.filterMap fun location =>
    if location.path = path then location.leading else none
  found.getLast?.getD ""

/-! ### Declarations -/

/-- The descriptor of an enum. -/
def enumOf (context : Context) (scope : String) (path : List Int) (raw : RawEnum) : EnumType where
  name := raw.name
  fullName := Text.qualified scope raw.name
  values := raw.values.map fun value => ⟨value.name, .ofInt value.number⟩
  comment := context.commentAt path

/-- The descriptors of several enums, each under its path. -/
def enumsOf (context : Context) (scope : String) (path : List Int) (number : Int)
    (raws : List RawEnum) : List EnumType :=
  raws.mapIdx fun i raw => enumOf context scope (pathInto path number i) raw

/-- What is known of the message around a field. -/
structure Owner where
  fullName : String
  path : List Int
  /-- The full names of the map entries nested in the message. -/
  mapEntries : List String
  oneofs : List String

/-- The descriptor of a field of a supported kind. -/
def fieldOf (context : Context) (owner : Owner) (position : Nat) (raw : RawField)
    (kind : FieldKind) : Except LoadError Field := do
  let typeName := raw.typeName.map Text.withoutDot
  let label := labelOf raw.label
  let repeated := label = some repeatedLabel
  let isMap := repeated ∧ kind = .message ∧ typeName.any owner.mapEntries.contains
  let oneof ← match raw.oneofIndex with
    | none => pure none
    | some index => match owner.oneofs[index]? with
      | some group => pure (some group)
      | none => .error (.groupOutOfRange owner.fullName raw.name index)
  return {
    name := raw.name
    number := .ofNat raw.number
    kind
    cardinality := if isMap then .map else if repeated then .list else .singular
    typeName
    oneof
    optional := raw.proto3Optional ||
      (context.proto2 && label = some optionalLabel && raw.oneofIndex.isNone)
    comment := context.commentAt (pathInto owner.path fieldsOfMessage position)
    overlay := overlay? "field" raw.options }

/-- The descriptors of several fields, supported and unsupported ones apart, with positions counted
from a number on. -/
def fieldsOf (context : Context) (owner : Owner) :
    Nat → List RawField → Except LoadError (List Field × List UnsupportedField)
  | _, [] => .ok ([], [])
  | position, raw :: rest =>
    match kindOf raw.type with
    | .error kind => do
      let (fields, unsupported) ← fieldsOf context owner (position + 1) rest
      return (fields, ⟨raw.name, .ofNat raw.number, kind⟩ :: unsupported)
    | .ok kind => do
      let field ← fieldOf context owner position raw kind
      let (fields, unsupported) ← fieldsOf context owner (position + 1) rest
      return (field :: fields, unsupported)

/-- Whether a oneof group, by its position, is made up for a field with explicit presence. -/
def isSynthetic (fields : List RawField) (index : Nat) : Bool :=
  fields.any fun raw =>
    raw.oneofIndex = some index && raw.proto3Optional && (kindOf raw.type).toOption.isSome

mutual

/-- The descriptor of a message. -/
def messageOf (context : Context) (scope : String) (path : List Int) :
    RawMessage → Except LoadError Message
  | raw@⟨name, fields, nested, enums, oneofs, options⟩ => do
    let fullName := Text.qualified scope name
    let inner ← messagesOf context fullName path nestedOfMessage 0 nested
    let owner : Owner :=
      { fullName, path, oneofs, mapEntries := (inner.filter (·.mapEntry)).map (·.fullName) }
    let (fields, unsupported) ← fieldsOf context owner 0 fields
    return {
      name
      fullName
      file := context.path
      fields
      nested := inner
      enums := enumsOf context fullName path enumsOfMessage enums
      oneofs := oneofs.mapIdx fun i group => ⟨group, isSynthetic raw.fields i⟩
      mapEntry := match options.bind (·.member? "mapEntry") with
        | some (.boolean b) => b
        | _ => false
      comment := context.commentAt path
      overlay := overlay? "message" options
      unsupported }

/-- The descriptors of several messages, with positions counted from a number on. -/
def messagesOf (context : Context) (scope : String) (path : List Int) (number : Int) :
    Nat → List RawMessage → Except LoadError (List Message)
  | _, [] => .ok []
  | position, raw :: rest => do
    let first ← messageOf context scope (pathInto path number position) raw
    let others ← messagesOf context scope path number (position + 1) rest
    return first :: others

end

/-- The descriptor of a file. -/
def fileOf (raw : RawFile) : Except LoadError File := do
  let context : Context :=
    { path := raw.name, locations := raw.locations
      proto2 := raw.syntaxName.isEmpty || raw.syntaxName == "proto2" }
  let messages ← messagesOf context raw.package [] messagesOfFile 0 raw.messages
  return {
    path := raw.name
    package := raw.package
    messages
    enums := enumsOf context raw.package [] enumsOfFile raw.enums
    overlay := overlay? "file" raw.options }

/-- The descriptors of several files. -/
def filesOf : List RawFile → Except LoadError (List File)
  | [] => .ok []
  | raw :: rest => do
    let first ← fileOf raw
    let others ← filesOf rest
    return first :: others

/-- The set of descriptors of a text. -/
def load (text : String) : Except LoadError DescriptorSet := do
  let raw ← (RawSet.ofText text).mapError .rejected
  let files ← filesOf (raw.files ++ raw.protoFiles)
  return ⟨files, raw.targets⟩

end MessageSchema.Protojson
