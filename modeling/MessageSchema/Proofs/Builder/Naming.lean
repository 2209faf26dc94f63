import MessageSchema.Proofs.Builder.Nodes
import MessageSchema.Proofs.Builder.Parsing

/-!
# The names in emitted code

The code of a node names its fields and the builders that it calls, and nothing else. What holds of the
names of all fields and of all callees therefore holds of every name in the code.

## Main results

* `Builder.uses_codeOf`: the names in the code of a node.
-/

namespace MessageSchema.Builder

open Program

variable {allowed : String → Prop} {callees : Dictionary String}

theorem fieldsUse_iff {fields : List (String × Code)} :
    FieldsUse allowed fields ↔ ∀ e ∈ fields, allowed e.1 ∧ e.2.Uses allowed := by
  induction fields with
  | nil => simp [FieldsUse]
  | cons e rest ih => simp [FieldsUse, ih, and_assoc]

theorem fieldsUse_append {fields others : List (String × Code)} :
    FieldsUse allowed (fields ++ others) ↔ FieldsUse allowed fields ∧ FieldsUse allowed others := by
  simp only [fieldsUse_iff, List.forall_mem_append]

/-- A field that may be missing. -/
theorem fieldsUse_option {α : Type} {name : String} (hname : allowed name) (value : Option α)
    {code : α → Code} (hcode : ∀ v ∈ value, (code v).Uses allowed) :
    FieldsUse allowed (value.map fun v => (name, code v)).toList := by
  cases value with
  | none => trivial
  | some v => exact ⟨hname, hcode v rfl, trivial⟩

theorem fieldsUse_collection {α : Type} {name : String} (hname : allowed name) {items : List α}
    {code : List α → Code} (hcode : (code items).Uses allowed) :
    FieldsUse allowed (collectionField name code items) := by
  unfold collectionField
  split
  · trivial
  · exact ⟨hname, hcode, trivial⟩

/-- A field with a node in it. -/
theorem fieldsUse_boxed {name : String} (hname : allowed name) {value : Option Schema}
    (h : ∀ node ∈ value, (codeOf callees node).Uses allowed) :
    FieldsUse allowed (boxedField name (codeOfOption callees value)) := by
  cases value with
  | none => trivial
  | some node => exact ⟨hname, h node rfl, trivial⟩

theorem uses_withFields {fields : List (String × Code)} {base : Code}
    (hfields : FieldsUse allowed fields) (hbase : base.Uses allowed) :
    (withFields fields base).Uses allowed := by
  unfold withFields
  split
  · exact hbase
  · exact ⟨hfields, hbase⟩

theorem uses_baseOf (hcallees : ∀ name builder, callees.get? name = some builder → allowed builder)
    (node : Schema) : (baseOf callees node).Uses allowed := by
  unfold baseOf
  split
  · rename_i name hname
    cases hbuilder : callees.get? name with
    | none => trivial
    | some builder => exact hcallees name builder hbuilder
  · trivial

-- the names are found from the fields of a node; unfolding the code itself leads nowhere
attribute [local irreducible] codeOf Code.Uses

mutual

/-- The code of a node uses the names of fields, and of builders that it calls. -/
theorem uses_codeOf (hnames : ∀ name ∈ setters.map (·.1), allowed name)
    (hcallees : ∀ name builder, callees.get? name = some builder → allowed builder) :
    (node : Schema) → (codeOf callees node).Uses allowed
  | ⟨ref, type, title, description, format, pattern, contentEncoding, contentMediaType, minLength,
      maxLength, minimum, maximum, exclusiveMinimum, exclusiveMaximum, enumValues, items, minItems,
      maxItems, uniqueItems, properties, required, additionalProperties, propertyNames,
      minProperties, maxProperties, oneOf, allOf, defs⟩ => by
    have hitems := fieldsUse_boxed (hnames "items" (by simp [setters]))
      (uses_codeOfOption hnames hcallees items)
    have hproperties := uses_codeOfEntries hnames hcallees properties
    have hadditional := fieldsUse_boxed (hnames "additional_properties" (by simp [setters]))
      (uses_codeOfOption hnames hcallees additionalProperties)
    have hpropertyNames := fieldsUse_boxed (hnames "property_names" (by simp [setters]))
      (uses_codeOfOption hnames hcallees propertyNames)
    have honeOf := uses_codeOfAll hnames hcallees oneOf
    have hallOf := uses_codeOfAll hnames hcallees allOf
    simp only [setters, List.map_cons, List.map_nil, List.forall_mem_cons] at hnames
    rw [codeOf_eq]
    refine uses_withFields ?_ (uses_baseOf hcallees _)
    simp [fieldsUse_append, fieldsUse_option, fieldsUse_collection, textField, countField,
      boundField, Code.Uses, hnames, hitems, hproperties, hadditional, hpropertyNames, honeOf,
      hallOf]

/-- The code of a node that may be missing. -/
theorem uses_codeOfOption (hnames : ∀ name ∈ setters.map (·.1), allowed name)
    (hcallees : ∀ name builder, callees.get? name = some builder → allowed builder) :
    (value : Option Schema) → ∀ node ∈ value, (codeOf callees node).Uses allowed
  | none, _, h => nomatch h
  | some node, _, h => Option.some.inj h ▸ uses_codeOf hnames hcallees node

/-- The code of several nodes. -/
theorem uses_codeOfAll (hnames : ∀ name ∈ setters.map (·.1), allowed name)
    (hcallees : ∀ name builder, callees.get? name = some builder → allowed builder) :
    (nodes : List Schema) → AllUse allowed (codeOfAll callees nodes)
  | [] => trivial
  | node :: rest => ⟨uses_codeOf hnames hcallees node, uses_codeOfAll hnames hcallees rest⟩

/-- The code of the nodes under several keys. -/
theorem uses_codeOfEntries (hnames : ∀ name ∈ setters.map (·.1), allowed name)
    (hcallees : ∀ name builder, callees.get? name = some builder → allowed builder) :
    (entries : List (String × Schema)) → EntriesUse allowed (codeOfEntries callees entries)
  | [] => trivial
  | (_, node) :: rest => ⟨uses_codeOf hnames hcallees node, uses_codeOfEntries hnames hcallees rest⟩

end

end MessageSchema.Builder
