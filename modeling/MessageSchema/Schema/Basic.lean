import MessageSchema.Binary64.Basic
import MessageSchema.Dictionary
import MessageSchema.Text.Cut

/-!
# Schema nodes

A node of a JSON schema, Draft 2020-12, with the keywords that describe messages. Every keyword
may be unset. A registry holds the schema of each type under its full name, and references point
into it.

## Main definitions

* `PrimitiveType`: the seven primitive types.
* `Schema`: a node.
* `Schema.reference`, `Schema.requiring`, `Schema.rootReference`: nodes with one purpose.
* `Schema.referencedName?`, `Schema.isPureReference`: what a node refers to.
* `Registry`: the schemas of types by full name.
-/

namespace MessageSchema

/-- A primitive type. -/
inductive PrimitiveType
  | array
  | boolean
  | integer
  | null
  | number
  | object
  | string
deriving DecidableEq, Repr, Inhabited

namespace PrimitiveType

/-- All primitive types in alphabetical order. -/
def all : List PrimitiveType :=
  [.array, .boolean, .integer, .null, .number, .object, .string]

/-- The name of a primitive type in a schema. -/
def name : PrimitiveType → String
  | array => "array"
  | boolean => "boolean"
  | integer => "integer"
  | null => "null"
  | number => "number"
  | object => "object"
  | string => "string"

end PrimitiveType

/-- A schema node. Collections are unset when they are empty. -/
structure Schema where
  ref : Option String := none
  type : Option PrimitiveType := none
  title : Option String := none
  description : Option String := none
  format : Option String := none
  pattern : Option String := none
  contentEncoding : Option String := none
  contentMediaType : Option String := none
  minLength : Option UInt64 := none
  maxLength : Option UInt64 := none
  minimum : Option Binary64 := none
  maximum : Option Binary64 := none
  exclusiveMinimum : Option Binary64 := none
  exclusiveMaximum : Option Binary64 := none
  enumValues : List Int64 := []
  items : Option Schema := none
  minItems : Option UInt64 := none
  maxItems : Option UInt64 := none
  uniqueItems : Option Bool := none
  properties : List (String × Schema) := []
  required : List String := []
  additionalProperties : Option Schema := none
  propertyNames : Option Schema := none
  minProperties : Option UInt64 := none
  maxProperties : Option UInt64 := none
  oneOf : List Schema := []
  allOf : List Schema := []
  defs : List (String × Schema) := []
deriving Inhabited

/-- The schemas of types by full name. -/
abbrev Registry := Dictionary Schema

namespace Schema

/-- The node in which no keyword is set. -/
def blank : Schema := {}

/-- A node of a primitive type. -/
def typed (type : PrimitiveType) : Schema :=
  { type := some type }

/-- What every reference to a type begins with. -/
def refStart : String := "#/$defs/"

/-- A reference to a type and nothing else. -/
def reference (name : String) : Schema :=
  { ref := some (refStart ++ name) }

/-- A reference to a type that carries the registry in which the type is found. The entry of the
type stays one level below the node, so that the node does not contain itself. -/
def rootReference (name : String) (registry : Registry) : Schema :=
  { ref := some (refStart ++ name), defs := registry }

/-- A node that asks for one property to be present. -/
def requiring (name : String) : Schema :=
  { required := [name] }

/-- The type that a reference names. -/
def refName? (ref : String) : Option String :=
  Text.stripStart? refStart ref

/-- The type that the node refers to. -/
def referencedName? (node : Schema) : Option String :=
  node.ref.bind refName?

/-- Whether no keyword is set. -/
def isBlank (node : Schema) : Bool :=
  node.ref.isNone && node.type.isNone && node.title.isNone && node.description.isNone &&
    node.format.isNone && node.pattern.isNone && node.contentEncoding.isNone &&
    node.contentMediaType.isNone && node.minLength.isNone && node.maxLength.isNone &&
    node.minimum.isNone && node.maximum.isNone && node.exclusiveMinimum.isNone &&
    node.exclusiveMaximum.isNone && node.enumValues.isEmpty && node.items.isNone &&
    node.minItems.isNone && node.maxItems.isNone && node.uniqueItems.isNone &&
    node.properties.isEmpty && node.required.isEmpty && node.additionalProperties.isNone &&
    node.propertyNames.isNone && node.minProperties.isNone && node.maxProperties.isNone &&
    node.oneOf.isEmpty && node.allOf.isEmpty && node.defs.isEmpty

/-- Whether the node is a reference and nothing else. -/
def isPureReference (node : Schema) : Bool :=
  node.ref.isSome && { node with ref := none }.isBlank

end Schema

end MessageSchema
