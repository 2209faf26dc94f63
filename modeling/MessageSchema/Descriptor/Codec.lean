import MessageSchema.Descriptor.Basic
import MessageSchema.Document.Member

/-!
# Descriptors as JSON

One table of members for each declaration fixes how it is read from JSON and written to it. Absent
references and overlays, and an empty list of unsupported fields, are left out.

## Main definitions

* `File.ofJson`, `File.toJson`: a file read and written.
* `Message.toJson`, `EnumType.toJson`: a message and an enum written.
-/

namespace MessageSchema

/-- A number of 32 bits without a sign. -/
def readUInt32 (node : Json) : Decoded UInt32 :=
  UInt32.ofNat <$> Node.natural32 node

/-- A number of 32 bits with a sign. -/
def readInt32 (node : Json) : Decoded Int32 :=
  Int32.ofInt <$> Node.integer32 node

/-- The names of the cardinalities. -/
def Cardinality.names : List (String × Cardinality) :=
  [("singular", .singular), ("list", .list), ("map", .map)]

/-- The name of a cardinality. -/
def Cardinality.name : Cardinality → String
  | .singular => "singular"
  | .list => "list"
  | .map => "map"

/-- A comment is an object with its text, left out where it is empty. -/
def commentMembers : List (Member String) :=
  [.sparse "leading" Node.text (fun s => if s.isEmpty then none else some (.text s)) id
    fun s _ => s]

/-- The member of a comment. -/
def commentMember {ρ : Type} (get : ρ → String) (set : String → ρ → ρ) : Member ρ :=
  .defaulted "comments" (Member.record "Comments" "" commentMembers).decode
    (Member.encode commentMembers) get set

/-- A member that may be left out, and is where it has no value. -/
def absentMember {ρ α : Type} (name : String) (read : Json → Decoded α) (write : α → Json)
    (get : ρ → Option α) (set : Option α → ρ → ρ) : Member ρ :=
  .sparse name (Node.optional read) (Option.map write) get set

/-- A list that may be left out and is always written. -/
def listMember {ρ α : Type} (name : String) (read : Json → Decoded α) (write : α → Json)
    (get : ρ → List α) (set : List α → ρ → ρ) : Member ρ :=
  .defaulted name (Node.list read) (fun items => .array (items.map write)) get set

/-- The members of a field. -/
def Field.members : List (Member Field) :=
  [.required "name" Node.text .text (·.name) fun x f => { f with name := x },
    .required "number" readUInt32 (fun n => .integer n.toNat) (·.number)
      fun x f => { f with number := x },
    .required "kind" (Node.oneOf (FieldKind.all.map fun kind => (kind.keyword, kind)))
      (fun kind => .text kind.keyword) (·.kind) fun x f => { f with kind := x },
    .defaulted "cardinality" (Node.oneOf Cardinality.names) (fun c => .text c.name) (·.cardinality)
      fun x f => { f with cardinality := x },
    absentMember "type_name" Node.text .text (·.typeName) fun x f => { f with typeName := x },
    absentMember "oneof" Node.text .text (·.oneof) fun x f => { f with oneof := x },
    .defaulted "optional" Node.boolean .boolean (·.optional) fun x f => { f with optional := x },
    commentMember (·.comment) fun x f => { f with comment := x },
    absentMember "options" Node.value id (·.overlay) fun x f => { f with overlay := x }]

/-- The members of an unsupported field. -/
def UnsupportedField.members : List (Member UnsupportedField) :=
  [.required "name" Node.text .text (·.name) fun x f => { f with name := x },
    .required "number" readUInt32 (fun n => .integer n.toNat) (·.number)
      fun x f => { f with number := x },
    .required "kind" Node.text .text (·.kind) fun x f => { f with kind := x }]

/-- The members of a oneof group. -/
def Oneof.members : List (Member Oneof) :=
  [.required "name" Node.text .text (·.name) fun x o => { o with name := x },
    .defaulted "synthetic" Node.boolean .boolean (·.synthetic) fun x o => { o with synthetic := x }]

/-- The members of a value of an enum. -/
def EnumValue.members : List (Member EnumValue) :=
  [.required "name" Node.text .text (·.name) fun x v => { v with name := x },
    .required "number" readInt32 (fun n => .integer n.toInt) (·.number)
      fun x v => { v with number := x }]

/-- The members of an enum. -/
def EnumType.members : List (Member EnumType) :=
  [.required "name" Node.text .text (·.name) fun x e => { e with name := x },
    .required "full_name" Node.text .text (·.fullName) fun x e => { e with fullName := x },
    .required "values" (Node.list (Member.record "EnumValueDescriptor" default
        EnumValue.members).decode)
      (fun values => .array (values.map (Member.encode EnumValue.members))) (·.values)
      fun x e => { e with values := x },
    commentMember (·.comment) fun x e => { e with comment := x }]

/-- An enum read from JSON. -/
def EnumType.ofJson : Json → Decoded EnumType :=
  (Member.record "EnumDescriptor" default EnumType.members).decode

/-- An enum written to JSON. -/
def EnumType.toJson : EnumType → Json :=
  Member.encode EnumType.members

namespace Message

/-- The members of a message, given how nested messages are read and written. -/
def members (readNested : Json → Decoded Message) (writeNested : Message → Json) :
    List (Member Message) :=
  [.required "name" Node.text .text (·.name) fun x m => { m with name := x },
    .required "full_name" Node.text .text (·.fullName) fun x m => { m with fullName := x },
    .required "file" Node.text .text (·.file) fun x m => { m with file := x },
    listMember "fields" (Member.record "FieldDescriptor" default Field.members).decode
      (Member.encode Field.members) (·.fields) fun x m => { m with fields := x },
    listMember "nested" readNested writeNested (·.nested) fun x m => { m with nested := x },
    listMember "enums" EnumType.ofJson EnumType.toJson (·.enums) fun x m => { m with enums := x },
    listMember "oneofs" (Member.record "OneofDescriptor" default Oneof.members).decode
      (Member.encode Oneof.members) (·.oneofs) fun x m => { m with oneofs := x },
    .defaulted "map_entry" Node.boolean .boolean (·.mapEntry) fun x m => { m with mapEntry := x },
    commentMember (·.comment) fun x m => { m with comment := x },
    absentMember "options" Node.value id (·.overlay) fun x m => { m with overlay := x },
    .list "unsupported" (Member.record "UnsupportedField" default UnsupportedField.members).decode
      (Member.encode UnsupportedField.members) (·.unsupported)
      fun x m => { m with unsupported := x }]

/-- A message read from JSON, with messages nested in it up to a number of levels. -/
def ofJsonWithin : Nat → Json → Decoded Message
  | 0, _ => Decoded.reject .tooDeep
  | levels + 1, node =>
    (Member.record "MessageDescriptor" default
      (members (ofJsonWithin levels) fun _ => .null)).decode node

/-- A message read from JSON. No message nests deeper than the containers around it. -/
def ofJson (node : Json) : Decoded Message :=
  ofJsonWithin (node.depth + 1) node

/-- A message written to JSON, with messages nested in it up to a number of levels. -/
def toJsonWithin : Nat → Message → Json
  | 0, _ => .null
  | levels + 1, message =>
    Member.encode (members (fun _ => Decoded.reject .tooDeep) (toJsonWithin levels)) message

mutual

/-- How deep messages nest in a message. -/
def nesting : Message → Nat
  | ⟨_, _, _, _, nested, _, _, _, _, _, _⟩ => nestingOfAll nested + 1

/-- The greatest nesting among several messages. -/
def nestingOfAll : List Message → Nat
  | [] => 0
  | message :: rest => max (nesting message) (nestingOfAll rest)

end

/-- A message written to JSON. -/
def toJson (message : Message) : Json :=
  toJsonWithin message.nesting message

end Message

/-- The members of a file. -/
def File.members : List (Member File) :=
  [.required "path" Node.text .text (·.path) fun x f => { f with path := x },
    .defaulted "package" Node.text .text (·.package) fun x f => { f with package := x },
    listMember "messages" Message.ofJson Message.toJson (·.messages)
      fun x f => { f with messages := x },
    listMember "enums" EnumType.ofJson EnumType.toJson (·.enums) fun x f => { f with enums := x },
    absentMember "options" Node.value id (·.overlay) fun x f => { f with overlay := x }]

/-- A file read from JSON. -/
def File.ofJson : Json → Decoded File :=
  (Member.record "FileDescriptor" default File.members).decode

/-- A file written to JSON. -/
def File.toJson : File → Json :=
  Member.encode File.members

end MessageSchema
