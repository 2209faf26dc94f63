import MessageSchema.Descriptor.Kind
import MessageSchema.Json.Value

/-!
# Descriptors of messages

What a set of message definitions declares: files with messages and enums, messages with fields,
nested messages, enums and oneof groups. Option overlays are kept as they are written. A structural
fault that keeps a schema from being built names the declaration that it is about.

## Main definitions

* `SchemaError`: a fault; `SchemaError.message` is its wording.
* `Field`, `Message`, `EnumType`, `File`: the declarations.
* `Message.realOneof?`: the group that a field really belongs to.
* `Message.relativeName`: the name of a message below its package.
* `Message.withNested`, `Message.allWithNested`: a message with all messages nested in it.
-/

namespace MessageSchema

/-- A fault that keeps a schema from being built. -/
inductive SchemaError where
  /-- A field has a kind outside the closed set of kinds. -/
  | unsupportedFieldKind (typeName field kind : String)
  /-- A type is referenced that is not selected or not known. -/
  | unresolvedReference (typeName : String) (field : Option String) (target : String)
  /-- An option overlay cannot be interpreted. -/
  | malformedOption (scope reason : String)
  /-- A schema was asked for that belongs to no known type. -/
  | unknownType (name : String)
deriving DecidableEq, Repr, Inhabited

/-- The wording of a fault. -/
def SchemaError.message : SchemaError → String
  | .unsupportedFieldKind typeName field kind =>
    "Unsupported field kind " ++ kind ++ " on " ++ typeName ++ "." ++ field
  | .unresolvedReference typeName field target =>
    "Unresolved reference to " ++ target ++ " from " ++ typeName ++
      (field.map ("." ++ ·)).getD ""
  | .malformedOption scope reason => "Malformed option on " ++ scope ++ ": " ++ reason
  | .unknownType name => "Unknown message type: " ++ name

/-- How many values a field holds. -/
inductive Cardinality
  | singular
  | list
  /-- Keys with values; the type of the field is the entry that pairs them. -/
  | map
deriving DecidableEq, Repr, Inhabited

/-- A field of a message. -/
structure Field where
  name : String
  number : UInt32
  kind : FieldKind
  cardinality : Cardinality := .singular
  /-- The full name of the referenced type of a message, group, enum or map field. -/
  typeName : Option String := none
  /-- The oneof group that is declared around the field, or made up for it. -/
  oneof : Option String := none
  optional : Bool := false
  comment : String := ""
  overlay : Option Json := none
deriving Inhabited

/-- A field whose kind is outside the closed set, with its kind as it is written. -/
structure UnsupportedField where
  name : String
  number : UInt32
  kind : String
deriving DecidableEq, Inhabited

/-- A oneof group. A synthetic group is made up for a single field with explicit presence. -/
structure Oneof where
  name : String
  synthetic : Bool := false
deriving DecidableEq, Inhabited

/-- A value of an enum. -/
structure EnumValue where
  name : String
  number : Int32
deriving DecidableEq, Inhabited

/-- An enum. -/
structure EnumType where
  name : String
  fullName : String
  values : List EnumValue
  comment : String := ""
deriving DecidableEq, Inhabited

/-- The numbers of an enum in the order of its values. -/
def EnumType.numbers (e : EnumType) : List Int32 :=
  e.values.map (·.number)

/-- A message. -/
structure Message where
  name : String
  fullName : String
  /-- The path of the file that declares it. -/
  file : String
  fields : List Field := []
  nested : List Message := []
  enums : List EnumType := []
  oneofs : List Oneof := []
  /-- Whether it is the entry that pairs keys and values of a map field. -/
  mapEntry : Bool := false
  comment : String := ""
  overlay : Option Json := none
  /-- Fields that are left out of `fields` because of their kind. -/
  unsupported : List UnsupportedField := []
deriving Inhabited

/-- A file. -/
structure File where
  path : String
  package : String := ""
  messages : List Message := []
  enums : List EnumType := []
  overlay : Option Json := none
deriving Inhabited

namespace Field

/-- Whether the field holds a list. -/
def isList (field : Field) : Bool :=
  field.cardinality = .list

/-- Whether the field holds a map. -/
def isMap (field : Field) : Bool :=
  field.cardinality = .map

/-- Whether an instance has to have the field: a single value that is not optional and in no oneof
group, not even a synthetic one. An absent list or map is an empty one. -/
def isRequired (field : Field) : Bool :=
  field.oneof.isNone && !field.optional && !field.isList && !field.isMap

/-- The name of the referenced type, empty if there is none. -/
def target (field : Field) : String :=
  field.typeName.getD ""

end Field

namespace Message

/-- The number of the key of a map entry. -/
def keyNumber : UInt32 := 1

/-- The number of the value of a map entry. -/
def valueNumber : UInt32 := 2

/-- The fault of an unsupported field. -/
def unsupportedFault (message : Message) (field : UnsupportedField) : SchemaError :=
  .unsupportedFieldKind message.fullName field.name field.kind

/-- Fails on the first unsupported field. -/
def checkFieldKinds (message : Message) : Except SchemaError Unit :=
  match message.unsupported with
  | [] => .ok ()
  | field :: _ => .error (message.unsupportedFault field)

/-- The first field with a number. -/
def fieldByNumber? (message : Message) (number : UInt32) : Option Field :=
  message.fields.find? (·.number = number)

/-- The group that a field belongs to, unless it is synthetic. -/
def realOneof? (message : Message) (field : Field) : Option Oneof := do
  let name ← field.oneof
  let group ← message.oneofs.find? (·.name = name)
  if group.synthetic then none else some group

/-- The name of a message below its package; a name outside the package stays as it is. -/
def relativeName (message : Message) (package : String) : String :=
  if package.isEmpty then message.fullName
  else (Text.stripStart? (package ++ ".") message.fullName).getD message.fullName

mutual

/-- A message behind all messages nested in it. -/
def withNested : Message → List Message
  | message@⟨_, _, _, _, nested, _, _, _, _, _, _⟩ => allWithNested nested ++ [message]

/-- Several messages, each behind all messages nested in it. -/
def allWithNested : List Message → List Message
  | [] => []
  | message :: rest => withNested message ++ allWithNested rest

end

end Message

/-- The file name of a path, without its directories and the extension `.proto`. -/
def stemOfPath (path : String) : String :=
  let base := Text.lastPiece '/' path
  (Text.stripEnd? ".proto" base).getD base

/-- The file name of a file, without its directories and the extension `.proto`. -/
def File.stem (file : File) : String :=
  stemOfPath file.path

end MessageSchema
