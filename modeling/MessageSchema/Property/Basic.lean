import MessageSchema.Descriptor.Kind
import MessageSchema.Overlay.Basic
import MessageSchema.Schema.Basic

/-!
# Properties of a schema

What a field becomes in the schema of its message: a value, a list of values, or an object with
values under keys. Options may add a description and constraints; they never change what the
property is.

## Main definitions

* `Value`: one value and its constraints; `Property`: what a field becomes.
* `Property.apply`: the property with options applied to it.
* `Property.toSchema`: the node of a property.
-/

namespace MessageSchema

/-- The primitive type of values of a kind. An enum is known by its numbers. -/
def FieldKind.primitive : FieldKind → PrimitiveType
  | .bool => .boolean
  | .int32 | .sint32 | .uint32 | .fixed32 | .sfixed32 | .int64 | .sint64 | .uint64 | .fixed64
  | .sfixed64 => .integer
  | .float | .double => .number
  | .string | .bytes => .string
  | .enum => .integer
  | .message | .group => .object

/-- The pattern that keys of a kind have as texts; texts themselves need none. -/
def FieldKind.keyPattern? (kind : FieldKind) : Option String :=
  if kind.isInteger then some "^-?[0-9]+$"
  else if kind = .bool then some "^(true|false)$"
  else none

/-- What a value is. -/
inductive ValueKind
  | plain (type : PrimitiveType)
  /-- One of the numbers of an enum. -/
  | enumerated (numbers : List Int32)
  | bytes
  /-- A message, by its full name. -/
  | reference (target : String)
deriving DecidableEq, Inhabited

namespace ValueKind

/-- The primitive type of a value; a reference has none of its own. -/
def type? : ValueKind → Option PrimitiveType
  | plain type => some type
  | enumerated _ => some .integer
  | bytes => some .string
  | reference _ => none

/-- The numbers of an enum. -/
def numbers : ValueKind → List Int32
  | enumerated numbers => numbers
  | _ => []

/-- The message that a value is. -/
def target? : ValueKind → Option String
  | reference target => some target
  | _ => none

end ValueKind

/-- One value and its constraints. -/
structure Value where
  kind : ValueKind
  format : Option String := none
  pattern : Option String := none
  minimum : Option Binary64 := none
  maximum : Option Binary64 := none
  exclusiveMinimum : Bool := false
  exclusiveMaximum : Bool := false
  minLength : Option UInt64 := none
  maxLength : Option UInt64 := none
  contentEncoding : Option String := none
  contentMediaType : Option String := none
deriving DecidableEq, Inhabited

/-- Constraints on the number of items and properties. -/
structure Counts where
  minItems : Option UInt64 := none
  maxItems : Option UInt64 := none
  uniqueItems : Bool := false
  minProperties : Option UInt64 := none
  maxProperties : Option UInt64 := none
deriving DecidableEq, Inhabited

/-- How many values a property holds. -/
inductive Arity
  | single
  | list
  /-- Values under keys, which may have to match a pattern. -/
  | map (keyPattern : Option String)
deriving DecidableEq, Inhabited

/-- What a field becomes in the schema of its message. -/
structure Property where
  fieldName : String
  title : String
  description : String
  arity : Arity
  value : Value
  counts : Counts := {}
deriving DecidableEq, Inhabited

/-- A count that is given. -/
def givenCount (n : UInt64) : Option UInt64 :=
  if n = 0 then none else some n

/-- A text that is given. -/
def givenText (s : String) : Option String :=
  if s.isEmpty then none else some s

/-- The value with the options that concern a single value. A bound of zero counts if it is
exclusive. -/
def Value.apply (o : FieldOptions) (value : Value) : Value where
  kind := value.kind
  format := (givenText o.format).or value.format
  pattern := (givenText o.pattern).or value.pattern
  minimum := if !o.minimum.isZero || o.exclusiveMinimum then some o.minimum else value.minimum
  maximum := if !o.maximum.isZero || o.exclusiveMaximum then some o.maximum else value.maximum
  exclusiveMinimum := value.exclusiveMinimum || o.exclusiveMinimum
  exclusiveMaximum := value.exclusiveMaximum || o.exclusiveMaximum
  minLength := (givenCount o.minLength).or value.minLength
  maxLength := (givenCount o.maxLength).or value.maxLength
  contentEncoding := (givenText o.contentEncoding).or value.contentEncoding
  contentMediaType := (givenText o.contentMediaType).or value.contentMediaType

/-- The counts with the options that concern them. -/
def Counts.apply (o : FieldOptions) (counts : Counts) : Counts where
  minItems := (givenCount o.minItems).or counts.minItems
  maxItems := (givenCount o.maxItems).or counts.maxItems
  uniqueItems := counts.uniqueItems || o.uniqueItems
  minProperties := (givenCount o.minProperties).or counts.minProperties
  maxProperties := (givenCount o.maxProperties).or counts.maxProperties

/-- The encoding of bytes in a text, unless options name another. -/
def bytesEncoding : String := "base64"

/-- The node of a value. -/
def Value.toSchema (value : Value) : Schema where
  ref := value.kind.target?.map (Schema.refStart ++ ·)
  type := value.kind.type?
  format := value.format
  pattern := value.pattern
  contentEncoding := value.contentEncoding.or
    (if value.kind = .bytes then some bytesEncoding else none)
  contentMediaType := value.contentMediaType
  minLength := value.minLength
  maxLength := value.maxLength
  minimum := if value.exclusiveMinimum then none else value.minimum
  maximum := if value.exclusiveMaximum then none else value.maximum
  exclusiveMinimum := if value.exclusiveMinimum then value.minimum else none
  exclusiveMaximum := if value.exclusiveMaximum then value.maximum else none
  enumValues := value.kind.numbers.map Int32.toInt64

namespace Property

/-- The property with options applied to it. Title and description replace those that are there,
counts concern the property as a whole, and all other options concern its values. -/
def apply (o : FieldOptions) (property : Property) : Property where
  fieldName := property.fieldName
  title := if o.title.isEmpty then property.title else o.title
  description := if o.description.isEmpty then property.description else o.description
  arity := property.arity
  value := property.value.apply o
  counts := property.counts.apply o

/-- The node of a property without its description and its counts. -/
def bareSchema (property : Property) : Schema :=
  match property.arity with
  | .single => property.value.toSchema
  | .list => { Schema.typed .array with items := some property.value.toSchema }
  | .map keyPattern =>
    { Schema.typed .object with
      additionalProperties := some property.value.toSchema
      propertyNames := keyPattern.map fun pattern => { pattern := some pattern } }

/-- The node of a property. -/
def toSchema (property : Property) : Schema :=
  { property.bareSchema with
    title := givenText property.title
    description := givenText property.description
    minItems := property.counts.minItems
    maxItems := property.counts.maxItems
    uniqueItems := if property.counts.uniqueItems then some true else none
    minProperties := property.counts.minProperties
    maxProperties := property.counts.maxProperties }

/-- The message that the property is, if it is a single message. -/
def target? (property : Property) : Option String :=
  match property.arity with
  | .single => property.value.kind.target?
  | _ => none

end Property

end MessageSchema
