import MessageSchema.Proofs.Dictionary
import MessageSchema.Proofs.Validation.Fields

/-!
# When bounds cross

Options are refused if a lower bound exceeds the upper one, both being given. A count is given unless
it is zero, both where options are refused and where they are applied, and so accepted counts never
cross. A bound on a number is refused on the same terms, but a zero is applied as well if it is
exclusive: such a zero is never compared with the other bound, and may lie beyond it.

## Main definitions

* `Schema.parts`: a node with the node of its items or further properties.
* `Schema.CountsOrdered`, `Schema.BoundsOrdered`: no lower bound of a node exceeds the upper one.
* `FieldOptions.CrossesAtZero`: an exclusive zero lies beyond the other bound.

## Main results

* `FieldOptions.countsCross_eq_false_iff`, `FieldOptions.boundsOrdered_iff`: the bounds of accepted
  options.
* `Shape.countsOrdered_and_boundsOrdered_iff`: the exact condition, for every property of a message.
* `Shape.not_boundsOrdered`: an exclusive zero above the greatest number.
-/

namespace MessageSchema

variable {pool : Pool} {selected : List String} {message owner : Message} {field : Field}

/-! ### Bounds of a node -/

namespace Schema

/-- A node with the node of its items, or that of its further properties. -/
def parts (node : Schema) : List Schema :=
  node :: (node.items.toList ++ node.additionalProperties.toList)

/-- A lower bound that is given does not exceed an upper one that is given. -/
def Ordered {α : Type} [LE α] (least greatest : Option α) : Prop :=
  ∀ lower ∈ least, ∀ upper ∈ greatest, lower ≤ upper

theorem ordered_none {α : Type} [LE α] {greatest : Option α} : Ordered none greatest := nofun

/-- No least count of a node exceeds the greatest. -/
structure CountsOrdered (node : Schema) : Prop where
  lengths : Ordered node.minLength node.maxLength
  items : Ordered node.minItems node.maxItems
  properties : Ordered node.minProperties node.maxProperties

/-- No lower bound of a node on a number exceeds an upper one, whether they are exclusive or not. -/
def BoundsOrdered (node : Schema) : Prop :=
  ∀ lower ∈ node.minimum.toList ++ node.exclusiveMinimum.toList,
    ∀ upper ∈ node.maximum.toList ++ node.exclusiveMaximum.toList, lower ≤ upper

end Schema

open Schema (Ordered CountsOrdered BoundsOrdered)

/-- The counts of a property do not cross, nor do the lengths of its values. -/
structure Property.CountsOrdered (property : Property) : Prop where
  lengths : Ordered property.value.minLength property.value.maxLength
  items : Ordered property.counts.minItems property.counts.maxItems
  properties : Ordered property.counts.minProperties property.counts.maxProperties

theorem Value.boundsOrdered_toSchema (value : Value) :
    value.toSchema.BoundsOrdered ↔ Ordered value.minimum value.maximum := by
  cases hlower : value.exclusiveMinimum <;> cases hupper : value.exclusiveMaximum <;>
    simp [Value.toSchema, BoundsOrdered, Ordered, hlower, hupper]

namespace Property

/-- The bounds in the node of a property are those of its value, wherever that is described. -/
theorem boundsOrdered_toSchema (property : Property) :
    (∀ part ∈ property.toSchema.parts, part.BoundsOrdered) ↔
      Ordered property.value.minimum property.value.maximum := by
  rw [← Value.boundsOrdered_toSchema]
  cases harity : property.arity <;>
    simp [Property.toSchema, bareSchema, harity, Schema.parts, Schema.typed, BoundsOrdered,
      Value.toSchema]

/-- A node with the bounds of a property describes the property, or the values in a collection. -/
theorem mem_parts_toSchema {property : Property} {part : Schema}
    (h : part ∈ property.toSchema.parts) :
    part = property.toSchema ∨ part = property.value.toSchema := by
  cases harity : property.arity with
  | single => exact .inl (by
      simpa [Schema.parts, Property.toSchema, bareSchema, harity, Value.toSchema] using h)
  | list => simpa [Schema.parts, Property.toSchema, bareSchema, harity, Schema.typed] using h
  | map keyPattern =>
    simpa [Schema.parts, Property.toSchema, bareSchema, harity, Schema.typed] using h

/-- The counts in the node of a property are those of the property and its value. -/
theorem countsOrdered_toSchema {property : Property} (h : property.CountsOrdered) :
    ∀ part ∈ property.toSchema.parts, part.CountsOrdered := by
  obtain ⟨hlengths, hitems, hproperties⟩ := h
  intro part hpart
  rcases mem_parts_toSchema hpart with rfl | rfl
  · rw [Property.toSchema, bareSchema]
    cases property.arity with
    | single => exact ⟨hlengths, hitems, hproperties⟩
    | list => exact ⟨Schema.ordered_none, hitems, hproperties⟩
    | map keyPattern => exact ⟨Schema.ordered_none, hitems, hproperties⟩
  · exact ⟨hlengths, Schema.ordered_none, Schema.ordered_none⟩

end Property

/-! ### Bounds of options -/

namespace FieldOptions

variable {o : FieldOptions} {least greatest : UInt64}

/-- A zero that counts as a bound because it is exclusive lies beyond the other bound. -/
def CrossesAtZero (o : FieldOptions) : Prop :=
  o.maximum < o.minimum ∧
    (o.minimum.isZero = true ∧ o.exclusiveMinimum = true ∨
      o.maximum.isZero = true ∧ o.exclusiveMaximum = true)

instance (o : FieldOptions) : Decidable o.CrossesAtZero :=
  inferInstanceAs (Decidable (_ ∧ _))

/-- Counts are given where options are applied exactly if they are compared. -/
theorem countsCross_eq_false_iff :
    countsCross least greatest = false ↔ Ordered (givenCount least) (givenCount greatest) := by
  rw [countsCross, givenCount, givenCount]
  split <;> split <;> simp_all [Ordered]

/-- The counts of accepted options do not cross. -/
theorem ordered_of_fault? (h : o.fault? = none) :
    Ordered (givenCount o.minLength) (givenCount o.maxLength) ∧
      Ordered (givenCount o.minItems) (givenCount o.maxItems) ∧
      Ordered (givenCount o.minProperties) (givenCount o.maxProperties) := by
  have hnone : o.countBounds.find? (fun bounds => countsCross bounds.1.2 bounds.2.2) = none := by
    rw [fault?] at h
    split at h
    · cases h
    · split at h
      · cases h
      · rename_i hcounts
        exact hcounts
  simpa [countBounds, countsCross_eq_false_iff] using hnone

/-- Two bounds of accepted options do not cross unless one of them is zero. -/
theorem isZero_of_fault? (h : o.fault? = none) (hcross : o.maximum < o.minimum) :
    o.minimum.isZero = true ∨ o.maximum.isZero = true := by
  rw [fault?] at h
  split at h
  · cases h
  · split at h
    · cases h
    · by_contra hzero
      rw [not_or, Bool.not_eq_true, Bool.not_eq_true] at hzero
      simp [hzero, hcross] at h

end FieldOptions

/-- Two zeros do not exceed each other. -/
theorem Binary64.units_of_isZero {x : Binary64} (h : x.isZero = true) : x.units = 0 := by
  have hzero : x.significand = 0 := by simpa [isZero] using h
  simp [units, hzero]

namespace FieldOptions

variable {o : FieldOptions}

/-- The bounds that accepted options set are in order unless a zero among them crosses. -/
theorem boundsOrdered_iff (h : o.fault? = none) (kind : ValueKind) :
    Ordered (Value.apply o { kind }).minimum (Value.apply o { kind }).maximum ↔
      ¬ o.CrossesAtZero := by
  have hgiven : Ordered (Value.apply o { kind }).minimum (Value.apply o { kind }).maximum ↔
      ((!o.minimum.isZero || o.exclusiveMinimum) = true →
        (!o.maximum.isZero || o.exclusiveMaximum) = true → ¬ o.maximum < o.minimum) := by
    simp only [Value.apply, Ordered, Binary64.not_lt]
    split <;> split <;> simp_all
  rw [hgiven, CrossesAtZero]
  by_cases hcross : o.maximum < o.minimum
  · -- two zeros do not cross, so the bound that is no zero is given whatever its flag says
    have hone : o.minimum.isZero = true → o.maximum.isZero = false := by
      intro hminimum
      rw [← Bool.not_eq_true]
      intro hmaximum
      have hunits : o.maximum.units < o.minimum.units := hcross
      rw [Binary64.units_of_isZero hminimum, Binary64.units_of_isZero hmaximum] at hunits
      exact lt_irrefl _ hunits
    have hzero := isZero_of_fault? h hcross
    cases hminimum : o.minimum.isZero <;> cases hmaximum : o.maximum.isZero <;> simp_all
  · simp [hcross]

end FieldOptions

/-! ### The properties of a message -/

/-- Options that are read from an overlay are accepted. -/
theorem Field.fault?_of_options {o : FieldOptions} (h : field.options owner = .ok (some o)) :
    o.fault? = none := by
  obtain ⟨options, -, h⟩ := Except.bind_eq_ok.mp h
  cases options with
  | none => cases Except.pure_eq_ok.mp h
  | some found =>
    obtain ⟨⟨⟩, hcheck, h⟩ := Except.bind_eq_ok.mp h
    obtain rfl := Option.some.inj (Except.pure_eq_ok.mp h)
    rw [FieldOptions.check] at hcheck
    split at hcheck
    · cases hcheck
    · assumption

namespace Shape

/-- The node of a field, from its options and its property. -/
theorem property?_eq_some {node : Schema}
    (h : property? pool selected owner field = .ok (some node)) :
    ∃ options title description property, field.options owner = .ok options ∧
      Property.ofField pool owner field title description = .ok property ∧
      node = Shape.node options property := by
  obtain ⟨options, hoptions, h⟩ := Except.bind_eq_ok.mp h
  split at h
  · simp at h
  · obtain ⟨property, hproperty, h⟩ := Except.bind_eq_ok.mp h
    obtain ⟨⟨⟩, -, h⟩ := Except.bind_eq_ok.mp h
    exact ⟨options, _, _, property, hoptions, hproperty,
      (Option.some.inj (Except.pure_eq_ok.mp h)).symm⟩

/-- A property in the schema of a message is the node of a field. -/
theorem field_of_mem_properties {shape node : Schema} {name : String}
    (h : ofMessage pool selected message = .ok shape) (hnode : (name, node) ∈ shape.properties) :
    ∃ field ∈ message.fields, field.name = name ∧
      property? pool selected message field = .ok (some node) := by
  obtain ⟨⟨⟩, -, h⟩ := Except.bind_eq_ok.mp h
  obtain ⟨entries, hentries, h⟩ := Except.bind_eq_ok.mp h
  obtain rfl := Except.pure_eq_ok.mp h
  obtain ⟨e, he, heq⟩ := List.mem_map.mp (Dictionary.mem_of_mem_ofList hnode)
  cases heq
  obtain ⟨hmem, hproperty⟩ := mem_of_entriesOf hentries he
  exact ⟨e.1, hmem, rfl, hproperty⟩

/-- Without options a node has no bounds. -/
theorem ordered_node_none {property : Property} {title description : String}
    (h : Property.ofField pool owner field title description = .ok property) :
    (∀ part ∈ (node none property).parts, part.CountsOrdered) ∧
      ∀ part ∈ (node none property).parts, part.BoundsOrdered := by
  obtain ⟨kind, hvalue⟩ : ∃ kind, property.value = { kind } := ⟨_, Property.value_of_ofField h⟩
  have hcounts : property.counts = {} := by rw [Property.eq_of_ofField h]
  cases htarget : property.target? with
  | some target =>
    have hparts : (node none property).parts = [.reference target] := by
      simp only [node, htarget]
      rfl
    rw [hparts, List.forall_mem_singleton, List.forall_mem_singleton]
    exact ⟨⟨Schema.ordered_none, Schema.ordered_none, Schema.ordered_none⟩, by
      simp [BoundsOrdered, Schema.reference]⟩
  | none =>
    have hnode : node none property = property.toSchema := by simp only [node, htarget]
    rw [hnode, Property.boundsOrdered_toSchema]
    refine ⟨Property.countsOrdered_toSchema ⟨?_, ?_, ?_⟩, ?_⟩
    · rw [hvalue]
      exact Schema.ordered_none
    · rw [hcounts]
      exact Schema.ordered_none
    · rw [hcounts]
      exact Schema.ordered_none
    · rw [hvalue]
      exact Schema.ordered_none

/-- **When the bounds of a property cross.** Every property of a message is the node of a field of
that name. No least count in it exceeds the greatest, and no lower bound on a number exceeds the upper
one unless the options of the field set a zero that crosses. -/
theorem countsOrdered_and_boundsOrdered_iff {shape node : Schema} {name : String}
    (h : ofMessage pool selected message = .ok shape) (hnode : (name, node) ∈ shape.properties) :
    ∃ field ∈ message.fields, field.name = name ∧
      property? pool selected message field = .ok (some node) ∧
      ∃ options, field.options message = .ok options ∧
        (∀ part ∈ node.parts, part.CountsOrdered) ∧
        ((∀ part ∈ node.parts, part.BoundsOrdered) ↔ ∀ o ∈ options, ¬ o.CrossesAtZero) := by
  obtain ⟨field, hfield, hname, hproperty⟩ := field_of_mem_properties h hnode
  obtain ⟨options, title, description, property, hoptions, hofField, rfl⟩ :=
    property?_eq_some hproperty
  refine ⟨field, hfield, hname, hproperty, options, hoptions, ?_⟩
  cases options with
  | none =>
    obtain ⟨hcounts, hbounds⟩ := ordered_node_none hofField
    exact ⟨hcounts, iff_of_true hbounds fun _ ho => by simp at ho⟩
  | some o =>
    have haccepted := Field.fault?_of_options hoptions
    obtain ⟨hlengths, hitems, hproperties⟩ := FieldOptions.ordered_of_fault? haccepted
    obtain ⟨kind, hvalue⟩ : ∃ kind, property.value = { kind } :=
      ⟨_, Property.value_of_ofField hofField⟩
    have hcounts : property.counts = {} := by rw [Property.eq_of_ofField hofField]
    have hbounds := (property.apply o).boundsOrdered_toSchema
    constructor
    · refine Property.countsOrdered_toSchema ⟨?_, ?_, ?_⟩
      · simpa [Property.apply, hvalue, Value.apply] using hlengths
      · simpa [Property.apply, hcounts, Counts.apply] using hitems
      · simpa [Property.apply, hcounts, Counts.apply] using hproperties
    · rw [Shape.node, hbounds, Property.apply, hvalue, FieldOptions.boundsOrdered_iff haccepted]
      simp

/-- A reading with a least value, a temperature below zero, and notes of some length. -/
def probe : Message where
  name := "Probe"
  fullName := "lab.Probe"
  file := "lab.proto"
  fields := [
    { name := "celsius", number := 1, kind := .double,
      overlay := some (.object [("exclusiveMaximum", .boolean true), ("minimum", .text "-273.15")]) },
    { name := "notes", number := 2, kind := .string, cardinality := .list,
      overlay := some (.object [("maxItems", .integer 8), ("max_length", .text "80"),
        ("minItems", .integer 2), ("minLength", .integer 80)]) }]

/-- A pool without messages. -/
def emptyPool : Pool :=
  (DescriptorSet.mk [] []).pool

/-- An exclusive zero that does not cross, in a message with counts at their bounds. -/
theorem countsOrdered_and_boundsOrdered_iff_probe : ∃ shape node,
    ofMessage emptyPool [] probe = .ok shape ∧ ("celsius", node) ∈ shape.properties ∧
    node.minimum.isSome = true ∧ node.exclusiveMaximum = some (.zero false) ∧
    (∀ part ∈ node.parts, part.CountsOrdered) ∧ ∀ part ∈ node.parts, part.BoundsOrdered := by
  obtain ⟨shape, hshape, hnode⟩ : ∃ shape, ofMessage emptyPool [] probe = .ok shape ∧
      (shape.properties.any fun e => e.1 = "celsius" ∧ e.2.minimum.isSome = true ∧
        e.2.exclusiveMaximum = some (.zero false)) = true :=
    Except.exists_of_succeedsWith (by decide +kernel)
  obtain ⟨⟨name, node⟩, hmem, hnode⟩ := List.any_eq_true.mp hnode
  obtain ⟨rfl, hminimum, hmaximum⟩ := of_decide_eq_true hnode
  obtain ⟨field, hfield, hname, -, options, hoptions, hcounts, hbounds⟩ :=
    countsOrdered_and_boundsOrdered_iff hshape hmem
  have hcrosses : ∀ field ∈ probe.fields, Except.succeedsWith
      (fun options => options.all fun o => ¬ o.CrossesAtZero) (field.options probe) = true := by
    decide +kernel
  have hnone := hcrosses field hfield
  rw [hoptions] at hnone
  refine ⟨shape, node, hshape, hmem, hminimum, hmaximum, hcounts, hbounds.mpr fun o ho => ?_⟩
  exact of_decide_eq_true ((Option.all_eq_true _ _).mp hnone o ho)

/-- A number above an exclusive zero and up to a negative one. -/
def inverted : Message where
  name := "M"
  fullName := "a.M"
  file := "a.proto"
  fields := [
    { name := "x", number := 1, kind := .double,
      overlay := some (.object [("exclusiveMinimum", .boolean true), ("maximum", .integer (-5))]) }]

/-- **Bounds may cross.** A zero that is exclusive is written as a bound without having been compared
with the other one. -/
theorem not_boundsOrdered : ¬ ∀ (pool : Pool) (selected : List String) (message : Message)
    (shape : Schema), ofMessage pool selected message = .ok shape →
    ∀ e ∈ shape.properties, ∀ part ∈ e.2.parts, part.CountsOrdered ∧ part.BoundsOrdered := by
  intro hall
  obtain ⟨shape, hshape, hnode⟩ : ∃ shape, ofMessage emptyPool [] inverted = .ok shape ∧
      (shape.properties.any fun e => e.2.exclusiveMinimum.any fun lower =>
        e.2.maximum.any fun upper => ¬ lower ≤ upper) = true :=
    Except.exists_of_succeedsWith (by decide +kernel)
  obtain ⟨e, he, hnode⟩ := List.any_eq_true.mp hnode
  obtain ⟨lower, hlower, hnode⟩ := (Option.any_eq_true _ _).mp hnode
  obtain ⟨upper, hupper, hcross⟩ := (Option.any_eq_true _ _).mp hnode
  have hordered := (hall emptyPool [] inverted shape hshape e he e.2 List.mem_cons_self).2
  exact of_decide_eq_true hcross (hordered lower (by simp [hlower]) upper (by simp [hupper]))

end Shape

end MessageSchema
