import MessageSchema.Pool
import MessageSchema.Property.Basic

/-!
# Properties as records

A property may be kept in one record, with a field for everything that can be known of a property of
any kind. Nothing in such a record says that it has either a type or a target, or that only
collections have elements. Options are written into the record in place, partly into the record and
partly into that of its elements. The elements of a collection are built and drawn apart from fields
with a single value, which have a name and a text of their own.

## Main definitions

* `PropertyRecord`: everything that can be known of a property.
* `PropertyRecord.apply`, `PropertyRecord.toSchema`: options and the node, on records.
* `PropertyRecord.scalar`, `PropertyRecord.element`: the record of a field with one value, and that of
  an element of a collection.
* `PropertyRecord.ofField`: the record of a field.
-/

namespace MessageSchema

/-- Everything that can be known of a property. -/
structure PropertyRecord where
  fieldName : String := ""
  title : String := ""
  description : String := ""
  type : Option PrimitiveType := none
  format : Option String := none
  pattern : Option String := none
  /-- The pattern that keys have to match. -/
  keyPattern : Option String := none
  numbers : List Int32 := []
  isBytes : Bool := false
  target : Option String := none
  /-- The items of a list, or the values of a map. -/
  nested : Option PropertyRecord := none
  minimum : Option Binary64 := none
  maximum : Option Binary64 := none
  exclusiveMinimum : Bool := false
  exclusiveMaximum : Bool := false
  minLength : Option UInt64 := none
  maxLength : Option UInt64 := none
  contentEncoding : Option String := none
  contentMediaType : Option String := none
  counts : Counts := {}
deriving Inhabited

namespace PropertyRecord

/-! ### Options and nodes -/

/-- The record with the options that concern the property as a whole. -/
def applyToWhole (o : FieldOptions) (record : PropertyRecord) : PropertyRecord :=
  { record with
    title := if o.title.isEmpty then record.title else o.title
    description := if o.description.isEmpty then record.description else o.description
    counts := record.counts.apply o }

/-- The record with the options that concern a single value. -/
def applyToValue (o : FieldOptions) (record : PropertyRecord) : PropertyRecord :=
  { record with
    format := (givenText o.format).or record.format
    pattern := (givenText o.pattern).or record.pattern
    minimum := if !o.minimum.isZero || o.exclusiveMinimum then some o.minimum else record.minimum
    maximum := if !o.maximum.isZero || o.exclusiveMaximum then some o.maximum else record.maximum
    exclusiveMinimum := record.exclusiveMinimum || o.exclusiveMinimum
    exclusiveMaximum := record.exclusiveMaximum || o.exclusiveMaximum
    minLength := (givenCount o.minLength).or record.minLength
    maxLength := (givenCount o.maxLength).or record.maxLength
    contentEncoding := (givenText o.contentEncoding).or record.contentEncoding
    contentMediaType := (givenText o.contentMediaType).or record.contentMediaType }

/-- The record with options written into it. Those of a single value go to the elements, if there are
any. -/
def apply (o : FieldOptions) (record : PropertyRecord) : PropertyRecord :=
  match record.nested with
  | some element => { record.applyToWhole o with nested := some (element.applyToValue o) }
  | none => (record.applyToWhole o).applyToValue o

/-- The record with several options written into it, one after the other. -/
def applyAll (options : List FieldOptions) (record : PropertyRecord) : PropertyRecord :=
  options.foldl (fun record o => record.apply o) record

/-- The node with what the record says of a single value. -/
def writeValue (record : PropertyRecord) (node : Schema) : Schema :=
  { node with
    ref := record.target.map (Schema.refStart ++ ·)
    format := record.format
    pattern := record.pattern
    contentEncoding := record.contentEncoding.or
      (if record.isBytes then some bytesEncoding else none)
    contentMediaType := record.contentMediaType
    minLength := record.minLength
    maxLength := record.maxLength
    minimum := if record.exclusiveMinimum then node.minimum else record.minimum
    maximum := if record.exclusiveMaximum then node.maximum else record.maximum
    exclusiveMinimum := if record.exclusiveMinimum then record.minimum else node.exclusiveMinimum
    exclusiveMaximum := if record.exclusiveMaximum then record.maximum else node.exclusiveMaximum
    enumValues := record.numbers.map Int32.toInt64 }

/-- The node of an element: its type, and what the record says of a single value. -/
def valueSchema (record : PropertyRecord) : Schema :=
  record.writeValue { type := record.type }

/-- The node of a record as far as it concerns the property as a whole. -/
def outerSchema (record : PropertyRecord) : Schema where
  type := record.type
  title := givenText record.title
  description := givenText record.description
  minItems := record.counts.minItems
  maxItems := record.counts.maxItems
  uniqueItems := if record.counts.uniqueItems then some true else none
  minProperties := record.counts.minProperties
  maxProperties := record.counts.maxProperties
  propertyNames := record.keyPattern.map fun pattern => { pattern := some pattern }

/-- The node of a record. Elements are items if the type is that of arrays, and otherwise the values
under further keys. -/
def toSchema (record : PropertyRecord) : Schema :=
  match record.nested with
  | some element =>
    if record.type = some .array then
      { record.outerSchema with items := some element.valueSchema }
    else { record.outerSchema with additionalProperties := some element.valueSchema }
  | none => record.writeValue record.outerSchema

/-! ### Records of fields -/

/-- A record with a type. -/
def typed (type : PrimitiveType) : PropertyRecord where
  type := some type

/-- A record that refers to a message, and says nothing else. -/
def messageReference (target : Message) : PropertyRecord where
  target := some target.fullName

/-- The numbers of the enum that a field refers to. -/
def enumNumbers (pool : Pool) (owner : Message) (field : Field) : Except SchemaError (List Int32) :=
  match pool.enumeration? field.target with
  | some e => .ok e.numbers
  | none => .error (Pool.unresolved owner field field.target)

/-- The record of a field with one value. -/
def scalar (pool : Pool) (owner : Message) (field : Field) (title description : String) :
    Except SchemaError PropertyRecord := do
  let base ← match field.kind with
    | .message | .group => do
      let target ← pool.referenced owner field
      pure (messageReference target)
    | kind => pure (typed kind.primitive)
  let record := { base with fieldName := field.name, title, description }
  match field.kind with
  | .enum => do
    let numbers ← enumNumbers pool owner field
    return { record with numbers }
  | .bytes => return { record with isBytes := true }
  | _ => return record

/-- The record of an element of a list or a map. -/
def element (pool : Pool) (owner : Message) (field : Field) : Except SchemaError PropertyRecord :=
  match field.kind with
  | .message | .group => do
    let target ← pool.referenced owner field
    return messageReference target
  | .enum => do
    let numbers ← enumNumbers pool owner field
    return { typed .integer with numbers }
  | .bytes => return { typed .string with isBytes := true }
  | kind => return typed kind.primitive

/-- The record of a field with a list of values. -/
def list (pool : Pool) (owner : Message) (field : Field) (title description : String) :
    Except SchemaError PropertyRecord := do
  let element ← element pool owner field
  return { typed .array with fieldName := field.name, title, description, nested := some element }

/-- The record of a field with values under keys. -/
def map (pool : Pool) (owner : Message) (field : Field) (title description : String) :
    Except SchemaError PropertyRecord := do
  let (entry, key, value) ← pool.entryFields owner field
  let element ← element pool entry value
  return { typed .object with
    fieldName := field.name
    title
    description
    keyPattern := key.kind.keyPattern?
    nested := some element }

/-- The record of a field. -/
def ofField (pool : Pool) (owner : Message) (field : Field) (title description : String) :
    Except SchemaError PropertyRecord :=
  if field.isList then list pool owner field title description
  else if field.isMap then map pool owner field title description
  else scalar pool owner field title description

end PropertyRecord

end MessageSchema
