import MessageSchema.Descriptor.Set
import MessageSchema.Manifest.Basic
import MessageSchema.Yaml.Node

/-!
# Descriptors of a manifest

The types that a manifest declares have full names, each of which may be declared once. A name in a
field means the innermost declaration: it is looked up below the message of the field first, then
below everything around it, and at last by itself. Every map field declares an entry that pairs its
keys and values.

## Main definitions

* `Manifest.LoadError`: why a text gives no set of descriptors.
* `Manifest.declared`: the names that a manifest declares.
* `Manifest.resolve?`: the declaration that a name means inside a scope.
* `Manifest.messageOf`: the descriptor of a message.
* `Manifest.load`: the set of descriptors of a text.
-/

namespace MessageSchema.Manifest

/-- What is wrong with the parts of a field taken together. -/
inductive FieldConflict
  | typeAndMap
  | neitherTypeNorMap
  | labelledMap
  | optionalInOneof
  | severalInOneof

/-- The wording of a conflict. -/
def FieldConflict.message : FieldConflict → String
  | .typeAndMap => "declares both 'type' and 'map'"
  | .neitherTypeNorMap => "needs either 'type' or 'map'"
  | .labelledMap => "map fields cannot carry a label"
  | .optionalInOneof => "optional fields cannot belong to a oneof"
  | .severalInOneof => "oneof members must be singular"

/-- Why a text gives no set of descriptors. Fields are given by their full names. -/
inductive LoadError
  | rejected (rejection : Rejection)
  | unknownType (field name : String)
  | invalidMapKey (field key : String)
  | conflict (field : String) (reason : FieldConflict)
  | duplicateType (name : String)

/-- The wording of an error. -/
def LoadError.message : LoadError → String
  | .rejected rejection => rejection.message
  | .unknownType field name => field ++ ": unknown type '" ++ name ++ "'"
  | .invalidMapKey field key =>
    field ++ ": map key type '" ++ key ++ "' must be an integer kind, bool or string"
  | .conflict field reason => field ++ ": " ++ reason.message
  | .duplicateType name => "Type " ++ name ++ " is declared more than once"

/-! ### Declared names -/

/-- What a name is declared as. -/
inductive Declared
  | message
  | enum
deriving DecidableEq

/-- The kind of a field of a declared type. -/
def Declared.kind : Declared → FieldKind
  | .message => .message
  | .enum => .enum

/-- The name of the entry of a map field: the parts between underscores, each with a capital
letter. -/
def entryName (field : String) : String :=
  let capital : List Char → List Char
    | [] => []
    | c :: cs => c.toUpper :: cs
  String.ofList ((Text.pieces '_' field.toList).flatMap capital) ++ "Entry"

/-- The names that an enum declares. -/
def declaredByEnum (scope : String) (spec : EnumSpec) : String × Declared :=
  (Text.qualified scope spec.name, .enum)

mutual

/-- The names that a message declares, its own the last. -/
def declaredByMessage (scope : String) : MessageSpec → List (String × Declared)
  | ⟨name, _, _, fields, messages, enums⟩ =>
    let fullName := Text.qualified scope name
    let entries := fields.filter (·.map.isSome)
    declaredByMessages fullName messages ++ enums.map (declaredByEnum fullName) ++
      entries.map (fun field => (Text.qualified fullName (entryName field.name), .message)) ++
      [(fullName, .message)]

/-- The names that several messages declare. -/
def declaredByMessages (scope : String) : List MessageSpec → List (String × Declared)
  | [] => []
  | spec :: rest => declaredByMessage scope spec ++ declaredByMessages scope rest

end

/-- The names that a manifest declares, in order. -/
def declarations (manifest : Manifest) : List (String × Declared) :=
  manifest.files.flatMap fun file =>
    declaredByMessages file.package file.messages ++ file.enums.map (declaredByEnum file.package)

/-- The names that a manifest declares, each of which has to be declared once. -/
def declared (manifest : Manifest) : Except LoadError (Dictionary Declared) :=
  manifest.declarations.foldlM
    (fun names (name, kind) =>
      if names.contains name then .error (.duplicateType name) else .ok (names.insert name kind))
    []

/-! ### Types of fields -/

/-- The declaration that a name means inside a scope of at most a number of parts. -/
def resolveFrom? (names : Dictionary Declared) (name : String) :
    Nat → String → Option (String × Declared)
  | 0, _ => none
  | parts + 1, scope =>
    let candidate := Text.qualified scope name
    match names.get? candidate with
    | some kind => some (candidate, kind)
    | none =>
      if scope.isEmpty then none
      else resolveFrom? names name parts (Text.enclosing '.' scope)

/-- The declaration that a name means inside a scope. A dot in front marks a full name. -/
def resolve? (names : Dictionary Declared) (scope name : String) : Option (String × Declared) :=
  match Text.stripStart? "." name with
  | some fullName => (names.get? fullName).map (fullName, ·)
  | none => resolveFrom? names name (scope.length + 1) scope

/-- The scalar kind that a type is a keyword of. -/
def scalarKind? (type : String) : Option FieldKind :=
  (FieldKind.ofName? type).filter fun kind => !kind.isMessage && kind != .enum

/-- The kind of a type inside a scope, and the full name of a declared type. -/
def kindOf (names : Dictionary Declared) (scope field type : String) :
    Except LoadError (FieldKind × Option String) :=
  match scalarKind? type with
  | some kind => .ok (kind, none)
  | none => match resolve? names scope type with
    | some (fullName, declared) => .ok (declared.kind, some fullName)
    | none => .error (.unknownType field type)

/-! ### Descriptors -/

/-- The descriptor of an enum. -/
def enumOf (scope : String) (spec : EnumSpec) : EnumType where
  name := spec.name
  fullName := Text.qualified scope spec.name
  values := spec.values.map fun value => ⟨value.name, .ofInt value.number⟩
  comment := spec.comment.getD ""

/-- What is known of the message around a field. -/
structure Owner where
  names : Dictionary Declared
  path : String
  fullName : String

/-- The full name of a field. -/
def Owner.label (owner : Owner) (field : FieldSpec) : String :=
  owner.fullName ++ "." ++ field.name

/-- Whether keys of a map may be of a kind. -/
def isKeyKind (kind : FieldKind) : Bool :=
  kind.isInteger || kind == .bool || kind == .string

/-- The entry of a map field. -/
def entryOf (owner : Owner) (field : FieldSpec) (map : MapSpec) : Except LoadError Message := do
  let label := owner.label field
  let key ← match (scalarKind? map.key).filter isKeyKind with
    | some kind => pure kind
    | none => .error (.invalidMapKey label map.key)
  let (kind, typeName) ← kindOf owner.names owner.fullName label map.value
  let name := entryName field.name
  return {
    name
    fullName := Text.qualified owner.fullName name
    file := owner.path
    fields :=
      [{ name := "key", number := Message.keyNumber, kind := key },
        { name := "value", number := Message.valueNumber, kind, typeName }]
    mapEntry := true }

/-- A field with its type, and the entry of a map field. -/
def typedFieldOf (owner : Owner) (number : UInt32) (field : FieldSpec) :
    Except LoadError (Field × Option Message) :=
  let label := owner.label field
  match field.type, field.map with
  | some _, some _ => .error (.conflict label .typeAndMap)
  | none, none => .error (.conflict label .neitherTypeNorMap)
  | some type, none => do
    let (kind, typeName) ← kindOf owner.names owner.fullName label type
    let cardinality := if field.label = some .repeated then Cardinality.list else .singular
    return ({ name := field.name, number, kind, typeName, cardinality }, none)
  | none, some map =>
    if field.label.isSome then .error (.conflict label .labelledMap)
    else do
      let entry ← entryOf owner field map
      return ({ name := field.name, number, kind := .message, cardinality := .map,
                typeName := some entry.fullName }, some entry)

/-- A field with its oneof group, and the groups of the message with it. An optional field has a
group of its own. -/
def groupedFieldOf (owner : Owner) (spec : FieldSpec) (field : Field) (groups : List Oneof) :
    Except LoadError (Field × List Oneof) :=
  let label := owner.label spec
  if spec.label = some .optional then
    if spec.oneof.isSome then .error (.conflict label .optionalInOneof)
    else
      let group := "_" ++ spec.name
      .ok ({ field with optional := true, oneof := some group }, groups ++ [⟨group, true⟩])
  else match spec.oneof with
    | none => .ok (field, groups)
    | some group =>
      if field.cardinality ≠ .singular then .error (.conflict label .severalInOneof)
      else
        let isKnown := groups.any (·.name == group)
        let all := if isKnown then groups else groups ++ [⟨group, false⟩]
        .ok ({ field with oneof := some group }, all)

/-- The descriptors of the fields of a message, the entries of its map fields and its groups, with
positions counted from a number on. -/
def fieldsOf (owner : Owner) : Nat → List FieldSpec → List Oneof →
    Except LoadError (List Field × List Message × List Oneof)
  | _, [], groups => .ok ([], [], groups)
  | position, spec :: rest, groups => do
    let number := UInt32.ofNat (spec.number.getD (position + 1))
    let (field, entry) ← typedFieldOf owner number spec
    let (field, groups) ← groupedFieldOf owner spec field groups
    let field := { field with comment := spec.comment.getD "", overlay := spec.options }
    let (fields, entries, groups) ← fieldsOf owner (position + 1) rest groups
    return (field :: fields, entry.toList ++ entries, groups)

mutual

/-- The descriptor of a message. The entries of its map fields are nested behind its own
messages. -/
def messageOf (names : Dictionary Declared) (path scope : String) :
    MessageSpec → Except LoadError Message
  | ⟨name, comment, options, fields, messages, enums⟩ => do
    let fullName := Text.qualified scope name
    let nested ← messagesOf names path fullName messages
    let (fields, entries, oneofs) ← fieldsOf ⟨names, path, fullName⟩ 0 fields []
    return {
      name
      fullName
      file := path
      fields
      nested := nested ++ entries
      enums := enums.map (enumOf fullName)
      oneofs
      comment := comment.getD ""
      overlay := options }

/-- The descriptors of several messages. -/
def messagesOf (names : Dictionary Declared) (path scope : String) :
    List MessageSpec → Except LoadError (List Message)
  | [] => .ok []
  | spec :: rest => do
    let first ← messageOf names path scope spec
    let others ← messagesOf names path scope rest
    return first :: others

end

/-- The descriptors of several files. -/
def filesOf (names : Dictionary Declared) : List FileSpec → Except LoadError (List File)
  | [] => .ok []
  | spec :: rest => do
    let messages ← messagesOf names spec.path spec.package spec.messages
    let others ← filesOf names rest
    return {
      path := spec.path
      package := spec.package
      messages
      enums := spec.enums.map (enumOf spec.package)
      overlay := spec.options } :: others

/-- The set of descriptors of a manifest. -/
def descriptors (manifest : Manifest) : Except LoadError DescriptorSet := do
  let names ← manifest.declared
  let files ← filesOf names manifest.files
  return ⟨files, manifest.targets⟩

/-- The manifest of a text, behind which nothing may follow. -/
def ofText (text : String) : Decoded Manifest := do
  let (root, rest) := Yaml.View.ofText text
  let manifest ← read root
  match rest with
  | none => return manifest
  | some problem => Decoded.reject (.illFormed problem)

/-- The set of descriptors of a text. -/
def load (text : String) : Except LoadError DescriptorSet := do
  let manifest ← (ofText text).mapError .rejected
  manifest.descriptors

end MessageSchema.Manifest
