import MessageSchema.Proofs.Shape

/-!
# Flat nodes

A registry stands at the root of a document and nowhere below. The schema of a message alone holds
none, in itself or further down, and all its properties are in key order.

## Main definitions

* `Schema.IsFlat`: a node without a registry, with its properties in key order, and so on down.

## Main results

* `Shape.isFlat_ofMessage`: the schema of a message is flat.
-/

namespace MessageSchema

mutual

/-- The node has no registry, its properties are in key order, and so on down. -/
def Schema.IsFlat : Schema → Prop
  | ⟨_, _, _, _, _, _, _, _, _, _, _, _, _, _, _, items, _, _, _, properties, _,
      additionalProperties, propertyNames, _, _, oneOf, allOf, defs⟩ =>
    defs = [] ∧ Dictionary.Sorted properties ∧ Schema.OptionIsFlat items ∧
      Schema.OptionIsFlat additionalProperties ∧ Schema.OptionIsFlat propertyNames ∧
      Schema.EntriesAreFlat properties ∧ Schema.AllAreFlat oneOf ∧ Schema.AllAreFlat allOf

/-- What may be missing is flat. -/
def Schema.OptionIsFlat : Option Schema → Prop
  | none => True
  | some node => node.IsFlat

/-- Several nodes are flat. -/
def Schema.AllAreFlat : List Schema → Prop
  | [] => True
  | node :: rest => node.IsFlat ∧ Schema.AllAreFlat rest

/-- The nodes under several keys are flat. -/
def Schema.EntriesAreFlat : List (String × Schema) → Prop
  | [] => True
  | (_, node) :: rest => node.IsFlat ∧ Schema.EntriesAreFlat rest

end

attribute [simp] Schema.IsFlat Schema.OptionIsFlat Schema.AllAreFlat Schema.EntriesAreFlat

theorem Schema.entriesAreFlat_iff {entries : List (String × Schema)} :
    Schema.EntriesAreFlat entries ↔ ∀ e ∈ entries, e.2.IsFlat := by
  induction entries with
  | nil => simp [EntriesAreFlat]
  | cons e rest ih => simp [EntriesAreFlat, ih]

theorem Schema.allAreFlat_iff {nodes : List Schema} :
    Schema.AllAreFlat nodes ↔ ∀ node ∈ nodes, node.IsFlat := by
  induction nodes with
  | nil => simp [AllAreFlat]
  | cons node rest ih => simp [AllAreFlat, ih]

theorem Value.isFlat_toSchema (value : Value) : value.toSchema.IsFlat := by
  simp [Value.toSchema, Schema.IsFlat, Schema.OptionIsFlat, Schema.EntriesAreFlat,
    Schema.AllAreFlat, Dictionary.Sorted]

theorem Property.isFlat_toSchema (property : Property) : property.toSchema.IsFlat := by
  have hkeys : ∀ pattern : Option String,
      Schema.OptionIsFlat (pattern.map fun p => ({ pattern := some p } : Schema)) := by
    rintro (_ | p) <;> simp [Schema.OptionIsFlat, Schema.IsFlat, Schema.EntriesAreFlat,
      Schema.AllAreFlat, Dictionary.Sorted]
  have hvalue := property.value.isFlat_toSchema
  cases h : property.arity with
  | single =>
    simp [toSchema, bareSchema, h, Value.toSchema, Schema.IsFlat, Schema.OptionIsFlat,
      Schema.EntriesAreFlat, Schema.AllAreFlat, Dictionary.Sorted]
  | list =>
    simp [toSchema, bareSchema, h, Schema.typed, Schema.IsFlat, Schema.OptionIsFlat, hvalue,
      Schema.EntriesAreFlat, Schema.AllAreFlat, Dictionary.Sorted]
  | map keyPattern =>
    simp [toSchema, bareSchema, h, Schema.typed, Schema.IsFlat, Schema.OptionIsFlat, hvalue, hkeys,
      Schema.EntriesAreFlat, Schema.AllAreFlat, Dictionary.Sorted]

namespace Shape

theorem isFlat_node (options : Option FieldOptions) (property : Property) :
    (node options property).IsFlat := by
  unfold node
  split
  · simp [Schema.reference, Schema.IsFlat, Schema.OptionIsFlat, Schema.EntriesAreFlat,
      Schema.AllAreFlat, Dictionary.Sorted]
  · exact property.isFlat_toSchema
  · exact (property.apply _).isFlat_toSchema

theorem allAreFlat_exclusive (members : List String) : Schema.AllAreFlat (exclusive members) := by
  refine Schema.allAreFlat_iff.mpr fun node hnode => ?_
  obtain ⟨name, -, rfl⟩ := List.mem_map.mp hnode
  simp [Schema.requiring, Schema.IsFlat, Schema.OptionIsFlat, Schema.EntriesAreFlat,
    Schema.AllAreFlat, Dictionary.Sorted]

theorem allAreFlat_alternatives (found : Dictionary (List String)) :
    Schema.AllAreFlat (alternatives found) := by
  unfold alternatives
  split
  · exact allAreFlat_exclusive _
  · trivial

theorem allAreFlat_jointly (found : Dictionary (List String)) :
    Schema.AllAreFlat (jointly found) := by
  unfold jointly
  split
  · trivial
  · trivial
  · refine Schema.allAreFlat_iff.mpr fun node hnode => ?_
    obtain ⟨⟨_, members⟩, -, rfl⟩ := List.mem_map.mp hnode
    simp [Schema.IsFlat, Schema.OptionIsFlat, Schema.EntriesAreFlat, Schema.AllAreFlat,
      allAreFlat_exclusive, Dictionary.Sorted]

variable {pool : Pool} {selected : List String} {owner : Message} {field : Field}

theorem isFlat_property? {schema : Schema}
    (h : property? pool selected owner field = .ok (some schema)) : schema.IsFlat := by
  obtain ⟨options, -, h⟩ := Except.bind_eq_ok.mp h
  split at h
  · simp at h
  · obtain ⟨property, -, h⟩ := Except.bind_eq_ok.mp h
    obtain ⟨⟨⟩, -, h⟩ := Except.bind_eq_ok.mp h
    obtain rfl := Option.some.inj (Except.pure_eq_ok.mp h)
    exact isFlat_node options property

/-- **The schema of a message is flat.** -/
theorem isFlat_ofMessage {shape : Schema} (h : ofMessage pool selected owner = .ok shape) :
    shape.IsFlat := by
  obtain ⟨⟨⟩, -, h⟩ := Except.bind_eq_ok.mp h
  obtain ⟨entries, hentries, h⟩ := Except.bind_eq_ok.mp h
  obtain rfl := Except.pure_eq_ok.mp h
  refine ⟨rfl, Dictionary.sorted_ofList _, trivial, trivial, trivial, ?_,
    allAreFlat_alternatives _, allAreFlat_jointly _⟩
  refine Schema.entriesAreFlat_iff.mpr fun e he => ?_
  obtain ⟨item, hitem, rfl⟩ := List.mem_map.mp (Dictionary.mem_of_mem_ofList he)
  exact isFlat_property? (mem_of_entriesOf hentries hitem).2

end Shape

end MessageSchema
