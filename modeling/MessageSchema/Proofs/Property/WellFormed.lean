import MessageSchema.Proofs.Property.Elements
import MessageSchema.Proofs.References
import MessageSchema.Proofs.Validation.Fields

/-!
# Records stay in order

Nothing in a record says that it has either a type or a target, or that only collections have
elements, and what is drawn depends on that. The record of a property that a field becomes is in
order, and stays so whatever options are written into it.

## Main definitions

* `PropertyRecord.WellFormed`: what a record has to obey.
* `Schema.SameFrame`: what options leave alone in a node.
* `Property.Built`, `PropertyRecord.Built`: what a field becomes, however it is built.

## Main results

* `PropertyRecord.WellFormed.apply`, `PropertyRecord.sameFrame_apply`: what options preserve.
* `Property.wellFormed_applyAll`, `PropertyRecord.kept_of_built`: what holds after any number of
  options.
-/

namespace MessageSchema

/-- The cardinality of a field whose property is of the arity. -/
def Arity.cardinality : Arity → Cardinality
  | single => .singular
  | list => .list
  | map _ => .map

variable {pool : Pool} {owner : Message} {field : Field} {cardinality : Cardinality}
  {property : Property}

/-! ### What a record obeys -/

namespace PropertyRecord

variable {record : PropertyRecord}

/-- The record has either a type or a target. -/
def HasOneMode (record : PropertyRecord) : Prop :=
  record.target.isSome = record.type.isNone

/-- What a record has to obey: it has either a type or a target, and so has that of its elements;
exactly arrays and objects have elements, which have none themselves; and only keys of objects have to
match a pattern. -/
structure WellFormed (record : PropertyRecord) : Prop where
  mode : record.HasOneMode
  nested : record.nested.isSome = true ↔ record.type = some .array ∨ record.type = some .object
  element : ∀ element ∈ record.nested,
    element.HasOneMode ∧ element.nested = none ∧ element.keyPattern = none
  keyPattern : record.keyPattern.isSome = true → record.type = some .object

/-- The type of a record tells how many values it is about. -/
structure HasCardinality (cardinality : Cardinality) (record : PropertyRecord) : Prop where
  array : record.type = some .array ↔ cardinality = .list
  object : record.type = some .object ↔ cardinality = .map

/-! ### What options preserve -/

/-- Options keep a record in order. -/
theorem WellFormed.apply (h : record.WellFormed) (o : FieldOptions) :
    (record.apply o).WellFormed where
  mode := by
    rw [HasOneMode, target_apply, type_apply]
    exact h.mode
  nested := by
    rw [nested_apply, Option.isSome_map, type_apply]
    exact h.nested
  element := by
    intro element hmem
    rw [nested_apply] at hmem
    obtain ⟨inner, hinner, rfl⟩ := Option.map_eq_some_iff.mp hmem
    exact h.element inner hinner
  keyPattern := by
    rw [keyPattern_apply, type_apply]
    exact h.keyPattern

/-- However many options are applied, the record stays in order. -/
theorem WellFormed.applyAll (h : record.WellFormed) (options : List FieldOptions) :
    (record.applyAll options).WellFormed := by
  induction options generalizing record with
  | nil => exact h
  | cons o rest ih => exact ih (h.apply o)

theorem HasCardinality.applyAll (h : record.HasCardinality cardinality)
    (options : List FieldOptions) : (record.applyAll options).HasCardinality cardinality where
  array := by
    rw [type_applyAll]
    exact h.array
  object := by
    rw [type_applyAll]
    exact h.object

end PropertyRecord

namespace Schema

/-- Two nodes refer to the same, and their nodes have the same types and numbers of enums; the nodes
for the names of their properties are equal. -/
structure SameFrame (first second : Schema) : Prop where
  references : first.references = second.references
  types : first.nodes.map (·.type) = second.nodes.map (·.type)
  enumValues : first.nodes.map (·.enumValues) = second.nodes.map (·.enumValues)
  propertyNames : first.propertyNames = second.propertyNames

/-- What options leave alone in a single node. -/
def frame (node : Schema) : Option String × Option PrimitiveType × List Int64 :=
  (node.ref, node.type, node.enumValues)

/-- It is enough to compare the nodes one by one. -/
theorem SameFrame.of_nodes {first second : Schema}
    (hnodes : first.nodes.map frame = second.nodes.map frame)
    (hnames : first.propertyNames = second.propertyNames) : first.SameFrame second where
  references := by
    have hrefs (node : Schema) :
        node.references = (node.nodes.map frame).flatMap (·.1.toList) := by
      rw [references_eq_flatMap, List.flatMap_map]
      rfl
    rw [hrefs, hrefs, hnodes]
  types := by
    simpa [frame, Function.comp_def] using congrArg (List.map (·.2.1)) hnodes
  enumValues := by
    simpa [frame, Function.comp_def] using congrArg (List.map (·.2.2)) hnodes
  propertyNames := hnames

theorem SameFrame.refl (node : Schema) : node.SameFrame node := ⟨rfl, rfl, rfl, rfl⟩

theorem SameFrame.trans {first second third : Schema} (h : first.SameFrame second)
    (h' : second.SameFrame third) : first.SameFrame third where
  references := h.references.trans h'.references
  types := h.types.trans h'.types
  enumValues := h.enumValues.trans h'.enumValues
  propertyNames := h.propertyNames.trans h'.propertyNames

/-- No bound of a node on a number is given both as an exclusive one and as one that is not. -/
structure BoundsOnce (node : Schema) : Prop where
  minimum : node.minimum = none ∨ node.exclusiveMinimum = none
  maximum : node.maximum = none ∨ node.exclusiveMaximum = none

/-- The node of a list has the type of arrays and items, and that of a map has the type of objects and
further properties, the names of which may be restricted. -/
structure FitsCardinality (cardinality : Cardinality) (node : Schema) : Prop where
  array : node.type = some .array ↔ cardinality = .list
  object : node.type = some .object ↔ cardinality = .map
  items : node.items.isSome = true ↔ cardinality = .list
  additionalProperties : node.additionalProperties.isSome = true ↔ cardinality = .map
  propertyNames : node.propertyNames.isSome = true → cardinality = .map

end Schema

namespace PropertyRecord

variable {record : PropertyRecord}

/-- The nodes in the node of a record: that of the element, and the one for keys. -/
theorem nodes_toSchema (record : PropertyRecord) : record.toSchema.nodes = record.toSchema ::
    (record.nested.toList.map (·.valueSchema) ++
      record.keyPattern.toList.map fun pattern => { pattern := some pattern }) := by
  have hnone : record.toSchema.properties = [] ∧ record.toSchema.oneOf = [] ∧
      record.toSchema.allOf = [] ∧ record.toSchema.defs = [] := by
    rw [toSchema]
    split
    · split <;> exact ⟨rfl, rfl, rfl, rfl⟩
    · exact ⟨rfl, rfl, rfl, rfl⟩
  obtain ⟨hproperties, honeOf, hallOf, hdefs⟩ := hnone
  have helement : Schema.nodesOfOption record.toSchema.items ++
      Schema.nodesOfOption record.toSchema.additionalProperties =
        record.nested.toList.map (·.valueSchema) := by
    rw [items_toSchema, additionalProperties_toSchema]
    cases record.nested with
    | none => split <;> rfl
    | some element => split <;> rfl
  have hkeys : Schema.nodesOfOption record.toSchema.propertyNames =
      record.keyPattern.toList.map fun pattern => { pattern := some pattern } := by
    rw [propertyNames_toSchema]
    cases record.keyPattern <;> rfl
  rw [Schema.nodes_eq_cons, helement, hkeys, hproperties, honeOf, hallOf, hdefs]
  simp [Schema.nodesOfAll, Schema.nodesOfEntries]

/-- A node with elements says nothing of a single value. -/
theorem frame_toSchema (record : PropertyRecord) : record.toSchema.frame =
    if record.nested.isSome then (none, record.type, []) else record.valueSchema.frame := by
  rw [toSchema]
  split
  · rename_i h
    rw [h]
    split <;> rfl
  · rename_i h
    rw [h]
    rfl

/-- Options change neither what a node refers to nor its types and numbers. -/
theorem sameFrame_apply (o : FieldOptions) (record : PropertyRecord) :
    (record.apply o).toSchema.SameFrame record.toSchema := by
  have hvalue (other : PropertyRecord) :
      (other.applyToValue o).valueSchema.frame = other.valueSchema.frame := rfl
  have hwhole : (record.apply o).toSchema.frame = record.toSchema.frame := by
    rw [frame_toSchema, frame_toSchema, nested_apply, Option.isSome_map, type_apply]
    cases h : record.nested with
    | some element => rfl
    | none =>
      rw [apply, h]
      rfl
  refine .of_nodes ?_ ?_
  · rw [nodes_toSchema, nodes_toSchema, nested_apply, keyPattern_apply, List.map_cons,
      List.map_cons, hwhole]
    cases record.nested with
    | none => rfl
    | some element =>
      simp [hvalue]
  · rw [propertyNames_toSchema, propertyNames_toSchema, keyPattern_apply]

/-- However many options are applied, a node keeps its frame. -/
theorem sameFrame_applyAll (options : List FieldOptions) (record : PropertyRecord) :
    (record.applyAll options).toSchema.SameFrame record.toSchema := by
  induction options generalizing record with
  | nil => exact .refl _
  | cons o rest ih => exact (ih (record.apply o)).trans (sameFrame_apply o record)

/-! ### Nodes of records -/

theorem boundsOnce_writeValue {node : Schema} (record : PropertyRecord)
    (hminimum : node.minimum = none) (hexclusiveMinimum : node.exclusiveMinimum = none)
    (hmaximum : node.maximum = none) (hexclusiveMaximum : node.exclusiveMaximum = none) :
    (record.writeValue node).BoundsOnce := by
  constructor
  · cases h : record.exclusiveMinimum <;> simp [writeValue, h, hminimum, hexclusiveMinimum]
  · cases h : record.exclusiveMaximum <;> simp [writeValue, h, hmaximum, hexclusiveMaximum]

/-- Bounds are given once in each node. -/
theorem boundsOnce_of_mem_nodes {record : PropertyRecord} :
    ∀ node ∈ record.toSchema.nodes, node.BoundsOnce := by
  intro node hnode
  rw [nodes_toSchema, List.mem_cons, List.mem_append, List.mem_map, List.mem_map] at hnode
  rcases hnode with rfl | ⟨element, -, rfl⟩ | ⟨pattern, -, rfl⟩
  · rw [toSchema]
    split
    · split <;> exact ⟨.inl rfl, .inl rfl⟩
    · exact boundsOnce_writeValue record rfl rfl rfl rfl
  · exact boundsOnce_writeValue element rfl rfl rfl rfl
  · exact ⟨.inl rfl, .inl rfl⟩

/-- A record in order is drawn as its type asks. -/
theorem WellFormed.fitsCardinality (h : record.WellFormed)
    (hcardinality : record.HasCardinality cardinality) :
    record.toSchema.FitsCardinality cardinality where
  array := by
    rw [type_toSchema]
    exact hcardinality.array
  object := by
    rw [type_toSchema]
    exact hcardinality.object
  items := by
    rw [items_toSchema, ← hcardinality.array]
    split
    · rename_i harray
      simp [harray, h.nested]
    · rename_i harray
      simp [harray]
  additionalProperties := by
    rw [additionalProperties_toSchema, ← hcardinality.object]
    split
    · rename_i harray
      simp [harray]
    · rename_i harray
      simp [harray, h.nested]
  propertyNames := by
    rw [propertyNames_toSchema, Option.isSome_map, ← hcardinality.object]
    exact h.keyPattern

/-- What holds of a record in order after any number of options. -/
theorem WellFormed.kept (h : record.WellFormed) (hcardinality : record.HasCardinality cardinality)
    (options : List FieldOptions) :
    (record.applyAll options).WellFormed ∧ (record.applyAll options).HasCardinality cardinality ∧
    (record.applyAll options).toSchema.SameFrame record.toSchema ∧
    (record.applyAll options).toSchema.FitsCardinality cardinality ∧
    ∀ node ∈ (record.applyAll options).toSchema.nodes, node.BoundsOnce := by
  have hwellFormed := h.applyAll options
  have hcardinality := hcardinality.applyAll options
  exact ⟨hwellFormed, hcardinality, sameFrame_applyAll options record,
    hwellFormed.fitsCardinality hcardinality, boundsOnce_of_mem_nodes⟩

end PropertyRecord

/-! ### Properties that a field becomes -/

/-- Values of the kind do not have the type of a collection. -/
def ValueKind.IsElement (kind : ValueKind) : Prop :=
  kind.type? ≠ some .array ∧ kind.type? ≠ some .object

theorem Value.isElement_of_ofField {value : Value} (h : Value.ofField pool owner field = .ok value) :
    value.kind.IsElement := by
  obtain ⟨-, held, -, rfl⟩ | ⟨-, e, -, rfl⟩ | ⟨-, rfl⟩ | ⟨hplain, -, rfl⟩ := Value.cases_ofField h
  · exact ⟨nofun, nofun⟩
  · exact ⟨nofun, nofun⟩
  · exact ⟨nofun, nofun⟩
  · revert hplain
    cases field.kind <;>
      simp [FieldKind.isMessage, FieldKind.primitive, ValueKind.IsElement, ValueKind.type?]

namespace Property

/-- A property that one of the builders gives for a field, and how many values it holds. -/
inductive Built (pool : Pool) (owner : Message) (field : Field) : Cardinality → Property → Prop
  | ofField {property : Property} {title description : String}
    (h : ofField pool owner field title description = .ok property) :
    Built pool owner field field.cardinality property
  | single {property : Property} {title description : String}
    (h : single pool owner field title description = .ok property) :
    Built pool owner field .singular property
  | list {property : Property} {title description : String}
    (h : list pool owner field title description = .ok property) :
    Built pool owner field .list property
  | map {property : Property} {title description : String}
    (h : map pool owner field title description = .ok property) :
    Built pool owner field .map property
  | reference (target : Message) : Built pool owner field .singular (reference target)

theorem Built.arity_and_kind (h : Built pool owner field cardinality property) :
    property.arity.cardinality = cardinality ∧ property.value.kind.IsElement := by
  cases h with
  | ofField h =>
    obtain ⟨hsingular, harity, hvalue⟩ | ⟨hlist, harity, hvalue⟩ |
      ⟨hmap, entry, key, inner, -, -, -, harity, hvalue⟩ := cases_ofField h
    · rw [harity, hsingular]
      exact ⟨rfl, Value.isElement_of_ofField hvalue⟩
    · rw [harity, hlist]
      exact ⟨rfl, Value.isElement_of_ofField hvalue⟩
    · rw [harity, hmap]
      exact ⟨rfl, Value.isElement_of_ofField hvalue⟩
  | single h | list h =>
    obtain ⟨value, hvalue, h⟩ := Except.bind_eq_ok.mp h
    obtain rfl := Except.pure_eq_ok.mp h
    exact ⟨rfl, Value.isElement_of_ofField hvalue⟩
  | map h =>
    obtain ⟨⟨entry, key, inner⟩, -, h⟩ := Except.bind_eq_ok.mp h
    obtain ⟨value, hvalue, h⟩ := Except.bind_eq_ok.mp h
    obtain rfl := Except.pure_eq_ok.mp h
    exact ⟨rfl, Value.isElement_of_ofField hvalue⟩
  | reference target => exact ⟨rfl, nofun, nofun⟩

/-- The record of a property is in order unless its values would be taken for a collection. -/
theorem wellFormed_record (h : property.value.kind.IsElement) : property.record.WellFormed := by
  have hmode : property.value.record.HasOneMode := by
    rw [PropertyRecord.HasOneMode]
    cases hkind : property.value.kind <;>
      simp [Value.record, hkind, ValueKind.target?, ValueKind.type?]
  have helement : ∀ element ∈ some property.value.record,
      element.HasOneMode ∧ element.nested = none ∧ element.keyPattern = none := by
    rintro element ⟨⟩
    exact ⟨hmode, rfl, rfl⟩
  rw [record]
  cases property.arity with
  | single => exact
      { mode := hmode
        nested := iff_of_false Bool.false_ne_true (Or.elim · h.1 h.2)
        element := fun _ hnone => absurd hnone (Option.not_mem_none _)
        keyPattern := fun hnone => absurd hnone Bool.false_ne_true }
  | list => exact
      { mode := rfl
        nested := iff_of_true rfl (.inl rfl)
        element := helement
        keyPattern := fun hnone => absurd hnone Bool.false_ne_true }
  | map keyPattern => exact
      { mode := rfl
        nested := iff_of_true rfl (.inr rfl)
        element := helement
        keyPattern := fun _ => rfl }

theorem hasCardinality_record (h : property.value.kind.IsElement) :
    property.record.HasCardinality property.arity.cardinality := by
  rw [record]
  cases property.arity with
  | single =>
    exact ⟨iff_of_false h.1 (by simp [Arity.cardinality]),
      iff_of_false h.2 (by simp [Arity.cardinality])⟩
  | list => constructor <;> simp [Arity.cardinality]
  | map keyPattern => constructor <;> simp [Arity.cardinality]

theorem Built.wellFormed (h : Built pool owner field cardinality property) :
    property.record.WellFormed ∧ property.record.HasCardinality cardinality := by
  obtain ⟨rfl, hkind⟩ := h.arity_and_kind
  exact ⟨wellFormed_record hkind, hasCardinality_record hkind⟩

/-- **Options keep the form of a property.** However a property is built for a field and whatever
options are applied to it, it behaves as its record, into which they are written. The record has
either a type or a target; exactly lists and maps have elements, whose record has none; and only maps
have a pattern for keys. What the node refers to, its types, its numbers and the node for keys are those
without options; lists have items and maps have further properties, and each bound is given once. -/
theorem wellFormed_applyAll (h : Built pool owner field cardinality property)
    (options : List FieldOptions) :
    (property.applyAll options).record = property.record.applyAll options ∧
    (property.record.applyAll options).toSchema = (property.applyAll options).toSchema ∧
    (property.record.applyAll options).WellFormed ∧
    (property.record.applyAll options).HasCardinality cardinality ∧
    (property.applyAll options).toSchema.SameFrame property.toSchema ∧
    (property.applyAll options).toSchema.FitsCardinality cardinality ∧
    ∀ node ∈ (property.applyAll options).toSchema.nodes, node.BoundsOnce := by
  obtain ⟨hwellFormed, hcardinality⟩ := h.wellFormed
  have hrecord := record_applyAll options property
  have hschema : (property.record.applyAll options).toSchema =
      (property.applyAll options).toSchema := by
    rw [← hrecord, toSchema_record]
  have hkept := hwellFormed.kept hcardinality options
  rw [hschema, toSchema_record] at hkept
  exact ⟨hrecord, hschema, hkept⟩

/-- The medals stay numbers of the enum under integer keys, whatever is said of them. -/
theorem wellFormed_applyAll_medals : ∃ property, Built game round medals .map property ∧
    (property.record.applyAll awarded).WellFormed ∧
    (property.record.applyAll awarded).HasCardinality .map ∧
    (property.applyAll awarded).toSchema.SameFrame property.toSchema ∧
    (property.applyAll awarded).toSchema.FitsCardinality .map ∧
    (∀ node ∈ (property.applyAll awarded).toSchema.nodes, node.BoundsOnce) ∧
    property.toSchema.nodes.map (·.enumValues) = [[], [0, 1], []] ∧
    (property.record.applyAll awarded).keyPattern = some "^-?[0-9]+$" := by
  obtain ⟨property, hproperty, hnode⟩ : ∃ property,
      ofField game round medals "" "" = .ok property ∧
        decide (property.toSchema.nodes.map (·.enumValues) = [[], [0, 1], []] ∧
          (property.record.applyAll awarded).keyPattern = some "^-?[0-9]+$") = true :=
    Except.exists_of_succeedsWith (by decide +kernel)
  have hbuilt : Built game round medals .map property := .ofField hproperty
  obtain ⟨-, -, hwellFormed, hcardinality, hframe, hfits, hbounds⟩ :=
    wellFormed_applyAll hbuilt awarded
  exact ⟨property, hbuilt, hwellFormed, hcardinality, hframe, hfits, hbounds,
    of_decide_eq_true hnode⟩

end Property

/-! ### Records that a field becomes -/

namespace PropertyRecord

variable {record : PropertyRecord}

/-- A record that one of the builders gives for a field, and how many values it is about. -/
inductive Built (pool : Pool) (owner : Message) (field : Field) :
    Cardinality → PropertyRecord → Prop
  | ofField {record : PropertyRecord} {title description : String}
    (h : ofField pool owner field title description = .ok record) :
    Built pool owner field field.cardinality record
  | scalar {record : PropertyRecord} {title description : String}
    (h : scalar pool owner field title description = .ok record) :
    Built pool owner field .singular record
  | list {record : PropertyRecord} {title description : String}
    (h : list pool owner field title description = .ok record) :
    Built pool owner field .list record
  | map {record : PropertyRecord} {title description : String}
    (h : map pool owner field title description = .ok record) :
    Built pool owner field .map record
  | messageReference (target : Message) :
    Built pool owner field .singular (messageReference target)

/-- A record that a builder gives keeps a property that a builder gives. -/
theorem Built.exists_property (h : Built pool owner field cardinality record) :
    ∃ property, Property.Built pool owner field cardinality property ∧
      property.record = record := by
  cases h with
  | ofField h =>
    rw [ofField_eq] at h
    obtain ⟨property, hproperty, hrecord⟩ := Except.map_eq_ok.mp h
    exact ⟨property, .ofField hproperty, hrecord⟩
  | scalar h =>
    rw [scalar_eq] at h
    obtain ⟨property, hproperty, hrecord⟩ := Except.map_eq_ok.mp h
    exact ⟨property, .single hproperty, hrecord⟩
  | list h =>
    rw [list_eq] at h
    obtain ⟨property, hproperty, hrecord⟩ := Except.map_eq_ok.mp h
    exact ⟨property, .list hproperty, hrecord⟩
  | map h =>
    rw [map_eq] at h
    obtain ⟨property, hproperty, hrecord⟩ := Except.map_eq_ok.mp h
    exact ⟨property, .map hproperty, hrecord⟩
  | messageReference target => exact ⟨.reference target, .reference target, rfl⟩

/-- **Options keep a record in order.** However a record is built for a field and whatever options are
written into it, what `WellFormed.kept` says holds of it. -/
theorem kept_of_built (h : Built pool owner field cardinality record)
    (options : List FieldOptions) :
    (record.applyAll options).WellFormed ∧ (record.applyAll options).HasCardinality cardinality ∧
    (record.applyAll options).toSchema.SameFrame record.toSchema ∧
    (record.applyAll options).toSchema.FitsCardinality cardinality ∧
    ∀ node ∈ (record.applyAll options).toSchema.nodes, node.BoundsOnce := by
  obtain ⟨property, hbuilt, rfl⟩ := h.exists_property
  exact hbuilt.wellFormed.1.kept hbuilt.wellFormed.2 options

end PropertyRecord

end MessageSchema
