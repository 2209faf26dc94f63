import MessageSchema.Proofs.Except
import MessageSchema.Property.OfField
import MessageSchema.Property.Record

/-!
# Records and the properties that they keep

A record behaves as the property that it keeps: options are written into it as they are applied to the
property, its node is that of the property, and the builders of records give the records of what the
builders of properties give. So what is proved of records holds of properties, and the other way
round.

## Main definitions

* `Property.record`: the record of a property.
* `Property.applyAll`: the property with several options applied to it.

## Main results

* `PropertyRecord.nested_applyAll`: options on a collection reach its elements.
* `Property.record_apply`, `Property.toSchema_record`: a record behaves as the property that it keeps.
* `PropertyRecord.ofField_eq`: the record of a field is that of its property.
-/

namespace MessageSchema

/-! ### Options on records -/

namespace PropertyRecord

/-- The record with what several options say of a single value. -/
def applyAllToValue (options : List FieldOptions) (record : PropertyRecord) : PropertyRecord :=
  options.foldl (fun record o => record.applyToValue o) record

@[simp] theorem type_apply (o : FieldOptions) (record : PropertyRecord) :
    (record.apply o).type = record.type := by
  rw [apply]
  split <;> rfl

@[simp] theorem target_apply (o : FieldOptions) (record : PropertyRecord) :
    (record.apply o).target = record.target := by
  rw [apply]
  split <;> rfl

@[simp] theorem keyPattern_apply (o : FieldOptions) (record : PropertyRecord) :
    (record.apply o).keyPattern = record.keyPattern := by
  rw [apply]
  split <;> rfl

@[simp] theorem nested_apply (o : FieldOptions) (record : PropertyRecord) :
    (record.apply o).nested = record.nested.map (·.applyToValue o) := by
  rw [apply]
  split
  · rename_i h
    rw [h]
    rfl
  · rename_i h
    rw [h]
    exact h

@[simp] theorem type_applyAll (options : List FieldOptions) (record : PropertyRecord) :
    (record.applyAll options).type = record.type := by
  induction options generalizing record with
  | nil => rfl
  | cons o rest ih => exact (ih (record.apply o)).trans (type_apply o record)

/-- Options on a collection reach its elements. -/
theorem nested_applyAll (options : List FieldOptions) (record : PropertyRecord) :
    (record.applyAll options).nested = record.nested.map (·.applyAllToValue options) := by
  induction options generalizing record with
  | nil => exact Option.map_id'.symm
  | cons o rest ih =>
    rw [applyAll, List.foldl_cons, ← applyAll, ih, nested_apply, Option.map_map]
    rfl

/-! ### Nodes of records -/

@[simp] theorem type_toSchema (record : PropertyRecord) : record.toSchema.type = record.type := by
  rw [toSchema]
  split
  · split <;> rfl
  · rfl

@[simp] theorem propertyNames_toSchema (record : PropertyRecord) : record.toSchema.propertyNames =
    record.keyPattern.map fun pattern => { pattern := some pattern } := by
  rw [toSchema]
  split
  · split <;> rfl
  · rfl

theorem items_toSchema (record : PropertyRecord) : record.toSchema.items =
    if record.type = some .array then record.nested.map (·.valueSchema) else none := by
  rw [toSchema]
  split
  · rename_i h
    rw [h]
    split <;> rfl
  · rename_i h
    rw [h, Option.map_none, ite_self]
    rfl

theorem additionalProperties_toSchema (record : PropertyRecord) :
    record.toSchema.additionalProperties =
      if record.type = some .array then none else record.nested.map (·.valueSchema) := by
  rw [toSchema]
  split
  · rename_i h
    rw [h]
    split <;> rfl
  · rename_i h
    rw [h, Option.map_none, ite_self]
    rfl

end PropertyRecord

/-! ### The record of a property -/

/-- The record of a value. -/
def Value.record (value : Value) : PropertyRecord where
  type := value.kind.type?
  format := value.format
  pattern := value.pattern
  numbers := value.kind.numbers
  isBytes := value.kind = .bytes
  target := value.kind.target?
  minimum := value.minimum
  maximum := value.maximum
  exclusiveMinimum := value.exclusiveMinimum
  exclusiveMaximum := value.exclusiveMaximum
  minLength := value.minLength
  maxLength := value.maxLength
  contentEncoding := value.contentEncoding
  contentMediaType := value.contentMediaType

namespace Property

/-- The property with several options applied to it, one after the other. -/
def applyAll (options : List FieldOptions) (property : Property) : Property :=
  options.foldl (fun property o => property.apply o) property

/-- The record of a property. -/
def record (property : Property) : PropertyRecord :=
  let whole : PropertyRecord := match property.arity with
    | .single => property.value.record
    | .list => { type := some .array, nested := some property.value.record }
    | .map keyPattern =>
      { type := some .object, keyPattern := keyPattern, nested := some property.value.record }
  { whole with
    fieldName := property.fieldName
    title := property.title
    description := property.description
    counts := property.counts }

/-- Options are written into the record as they are applied to the property. -/
theorem record_apply (o : FieldOptions) (property : Property) :
    (property.apply o).record = property.record.apply o := by
  cases harity : property.arity <;> simp only [record, apply, harity] <;> rfl

theorem record_applyAll (options : List FieldOptions) (property : Property) :
    (property.applyAll options).record = property.record.applyAll options := by
  induction options generalizing property with
  | nil => rfl
  | cons o rest ih =>
    rw [applyAll, List.foldl_cons, ← applyAll, ih, record_apply]
    rfl

theorem valueSchema_record (value : Value) : value.record.valueSchema = value.toSchema := by
  cases hkind : value.kind <;>
    simp [PropertyRecord.valueSchema, PropertyRecord.writeValue, Value.record, Value.toSchema, hkind]

/-- The node of a property is that of its record. -/
theorem toSchema_record (property : Property) : property.record.toSchema = property.toSchema := by
  cases harity : property.arity with
  | single =>
    have hnested : property.record.nested = none := by rw [record, harity]; rfl
    rw [PropertyRecord.toSchema, hnested, toSchema, bareSchema, harity, ← valueSchema_record,
      record, harity]
    rfl
  | list =>
    simp only [record, harity, PropertyRecord.toSchema, valueSchema_record, toSchema, bareSchema]
    rfl
  | map keyPattern =>
    simp only [record, harity, PropertyRecord.toSchema, valueSchema_record, toSchema, bareSchema]
    rfl

end Property

/-! ### Records of fields -/

namespace PropertyRecord

variable (pool : Pool) (owner : Message) (field : Field) (title description : String)

/-- The record of an element is that of its value. -/
theorem element_eq : element pool owner field =
    (Value.ofField pool owner field).map Value.record := by
  rw [element, Value.ofField, enumNumbers]
  cases field.kind with
  | message | group => cases pool.referenced owner field <;> rfl
  | enum => cases pool.enumeration? field.target <;> rfl
  | _ => rfl

theorem scalar_eq : scalar pool owner field title description =
    (Property.single pool owner field title description).map Property.record := by
  rw [scalar, Property.single, Value.ofField, enumNumbers]
  cases field.kind with
  | message | group => cases pool.referenced owner field <;> rfl
  | enum => cases pool.enumeration? field.target <;> rfl
  | _ => rfl

theorem list_eq : list pool owner field title description =
    (Property.list pool owner field title description).map Property.record := by
  rw [list, Property.list, element_eq]
  cases Value.ofField pool owner field <;> rfl

theorem map_eq : map pool owner field title description =
    (Property.map pool owner field title description).map Property.record := by
  rw [map, Property.map]
  cases pool.entryFields owner field with
  | error e => rfl
  | ok found =>
    obtain ⟨entry, key, value⟩ := found
    simp only [Except.ok_bind, element_eq]
    cases Value.ofField pool entry value <;> rfl

/-- The record of a field is that of its property. -/
theorem ofField_eq : ofField pool owner field title description =
    (Property.ofField pool owner field title description).map Property.record := by
  rw [ofField, Property.ofField, Field.isList, Field.isMap]
  cases field.cardinality with
  | singular => exact scalar_eq pool owner field title description
  | list => exact list_eq pool owner field title description
  | map => exact map_eq pool owner field title description

end PropertyRecord

end MessageSchema
