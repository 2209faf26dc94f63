import MessageSchema.Text.Cut

/-!
# Kinds of fields

The closed set of kinds that the type of a field can have, under their keywords and under their type
codes.

## Main definitions

* `FieldKind`: a kind.
* `FieldKind.keyword`: its keyword.
* `FieldKind.ofName?`, `FieldKind.ofCode?`: the kind of a name and of a type code.
-/

namespace MessageSchema

/-- A kind of field. -/
inductive FieldKind
  | bool
  | int32
  | sint32
  | uint32
  | fixed32
  | sfixed32
  | int64
  | sint64
  | uint64
  | fixed64
  | sfixed64
  | float
  | double
  | string
  | bytes
  | enum
  | message
  | group
deriving DecidableEq, Repr, Inhabited

namespace FieldKind

/-- All kinds, numbers by width. -/
def all : List FieldKind :=
  [.bool, .int32, .sint32, .uint32, .fixed32, .sfixed32, .int64, .sint64, .uint64, .fixed64,
    .sfixed64, .float, .double, .string, .bytes, .enum, .message, .group]

/-- All kinds in the order of their type codes, which count from one. -/
def byCode : List FieldKind :=
  [.double, .float, .int64, .uint64, .int32, .fixed64, .fixed32, .bool, .string, .group, .message,
    .bytes, .uint32, .enum, .sfixed32, .sfixed64, .sint32, .sint64]

/-- The keyword of a kind. -/
def keyword : FieldKind → String
  | bool => "bool"
  | int32 => "int32"
  | sint32 => "sint32"
  | uint32 => "uint32"
  | fixed32 => "fixed32"
  | sfixed32 => "sfixed32"
  | int64 => "int64"
  | sint64 => "sint64"
  | uint64 => "uint64"
  | fixed64 => "fixed64"
  | sfixed64 => "sfixed64"
  | float => "float"
  | double => "double"
  | string => "string"
  | bytes => "bytes"
  | enum => "enum"
  | message => "message"
  | group => "group"

/-- The ten kinds of whole numbers. -/
def isInteger : FieldKind → Bool
  | int32 | sint32 | uint32 | fixed32 | sfixed32 | int64 | sint64 | uint64 | fixed64 | sfixed64 =>
    true
  | _ => false

/-- The two kinds whose values are messages. -/
def isMessage : FieldKind → Bool
  | message | group => true
  | _ => false

/-- The kind with a keyword. -/
def ofKeyword? (name : String) : Option FieldKind :=
  all.find? (·.keyword == name)

/-- The kind of a name: a keyword in any case, with or without `TYPE_` in front of it. -/
def ofName? (name : String) : Option FieldKind :=
  let bare := (Text.stripStart? "TYPE_" name).getD name
  ofKeyword? (String.ofList (bare.toList.map Char.toLower))

/-- The kind of a type code. -/
def ofCode? : Int → Option FieldKind
  | .ofNat (n + 1) => byCode[n]?
  | _ => none

/-- The message on a name or code that stands for no kind. -/
def unsupportedMessage (given : String) : String :=
  "unsupported field kind: " ++ given

end FieldKind

end MessageSchema
