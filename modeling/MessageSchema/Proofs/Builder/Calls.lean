import MessageSchema.Proofs.Builder.Nodes
import MessageSchema.Proofs.References

/-!
# The calls in emitted code

The code of a node calls builders where the node, or a node in it, refers to a message, and nowhere
else.

## Main definitions

* `Builder.Code.calls`: the builders that an expression calls.
* `Builder.IsCallee`: a builder is the callee of a reference.

## Main results

* `Builder.isCallee_of_mem_calls`: every call in the code of a node is the callee of a reference in it.
-/

namespace MessageSchema

namespace Builder

variable {callees : Dictionary String} {builder name : String} {fields others : List (String × Code)}
  {base : Code} {refs refs' : List String}

mutual

/-- The builders that an expression calls. -/
def Code.calls : Code → List String
  | .call builder => [builder]
  | .node fields base => callsOfEntries fields ++ base.calls
  | .given value | .boxed value => value.calls
  | .nodes items => callsOfAll items
  | .entries items => callsOfEntries items
  | .blank | .reference _ | .type _ | .text _ | .count _ | .bound _ | .truth _ | .numbers _
  | .texts _ => []

/-- The builders that several expressions call. -/
def callsOfAll : List Code → List String
  | [] => []
  | item :: rest => item.calls ++ callsOfAll rest

/-- The builders that the expressions under several names call. -/
def callsOfEntries : List (String × Code) → List String
  | [] => []
  | (_, item) :: rest => item.calls ++ callsOfEntries rest

end

/-- A builder is the callee of one of several references. -/
def IsCallee (callees : Dictionary String) (refs : List String) (builder : String) : Prop :=
  ∃ ref ∈ refs, ∃ name, Schema.refName? ref = some name ∧ callees.get? name = some builder

theorem IsCallee.mono (hrefs : ∀ ref ∈ refs, ref ∈ refs') :
    IsCallee callees refs builder → IsCallee callees refs' builder := by
  rintro ⟨ref, href, hname⟩
  exact ⟨ref, hrefs ref href, hname⟩

/-! ### The calls in the fields of a node -/

theorem callsOfEntries_append :
    callsOfEntries (fields ++ others) = callsOfEntries fields ++ callsOfEntries others := by
  induction fields with
  | nil => rfl
  | cons e rest ih => simp [callsOfEntries, ih]

theorem mem_calls_withFields : builder ∈ (withFields fields base).calls ↔
    builder ∈ callsOfEntries fields ∨ builder ∈ base.calls := by
  unfold withFields
  split
  · rename_i hempty
    simp [List.isEmpty_iff.mp hempty, callsOfEntries]
  · simp [Code.calls]

@[simp] theorem callsOfEntries_textField (value : Option String) :
    callsOfEntries (textField name value) = [] := by
  cases value <;> rfl

@[simp] theorem callsOfEntries_countField (value : Option UInt64) :
    callsOfEntries (countField name value) = [] := by
  cases value <;> rfl

@[simp] theorem callsOfEntries_boundField (value : Option Binary64) :
    callsOfEntries (boundField name value) = [] := by
  cases value <;> rfl

@[simp] theorem callsOfEntries_type (value : Option PrimitiveType) :
    callsOfEntries (value.map fun type => (name, Code.given (.type type))).toList = [] := by
  cases value <;> rfl

@[simp] theorem callsOfEntries_truth (value : Option Bool) :
    callsOfEntries (value.map fun b => (name, Code.given (.truth b))).toList = [] := by
  cases value <;> rfl

@[simp] theorem callsOfEntries_numbers (items : List Int64) :
    callsOfEntries (collectionField name .numbers items) = [] := by
  cases items <;> rfl

@[simp] theorem callsOfEntries_texts (items : List String) :
    callsOfEntries (collectionField name .texts items) = [] := by
  cases items <;> rfl

@[simp] theorem callsOfEntries_nodes (items : List Code) :
    callsOfEntries (collectionField name .nodes items) = callsOfAll items := by
  cases items <;> simp [collectionField, callsOfEntries, callsOfAll, Code.calls]

@[simp] theorem callsOfEntries_entries (items : List (String × Code)) :
    callsOfEntries (collectionField name .entries items) = callsOfEntries items := by
  cases items <;> simp [collectionField, callsOfEntries, Code.calls]

@[simp] theorem callsOfEntries_boxedField (value : Option Code) :
    callsOfEntries (boxedField name value) = (value.map Code.calls).getD [] := by
  cases value with
  | none => rfl
  | some code => simp [boxedField, callsOfEntries, Code.calls]

theorem isCallee_of_mem_baseOf {node : Schema} (h : builder ∈ (baseOf callees node).calls) :
    IsCallee callees node.ref.toList builder := by
  unfold baseOf at h
  split at h
  · rename_i name hname
    obtain ⟨ref, href, hname⟩ := Option.bind_eq_some_iff.mp hname
    cases hbuilder : callees.get? name with
    | none => simp [hbuilder, Code.calls] at h
    | some found =>
      obtain rfl : builder = found := by simpa [hbuilder, Code.calls] using h
      exact ⟨ref, by simp [href], name, hname, hbuilder⟩
  · simp [Code.calls] at h

/-! ### The calls in the code of a node -/

-- the calls are found from the keywords of a node; unfolding the code itself leads nowhere
attribute [local irreducible] codeOf

mutual

/-- Every call in the code of a node is the callee of a reference in the node. -/
theorem isCallee_of_mem_calls : (node : Schema) → builder ∈ (codeOf callees node).calls →
    IsCallee callees node.references builder
  | ⟨ref, type, title, description, format, pattern, contentEncoding, contentMediaType, minLength,
      maxLength, minimum, maximum, exclusiveMinimum, exclusiveMaximum, enumValues, items, minItems,
      maxItems, uniqueItems, properties, required, additionalProperties, propertyNames,
      minProperties, maxProperties, oneOf, allOf, defs⟩, h => by
    have hitems := isCallee_of_mem_option items
    have hproperties := isCallee_of_mem_entries properties
    have hadditional := isCallee_of_mem_option additionalProperties
    have hpropertyNames := isCallee_of_mem_option propertyNames
    have honeOf := isCallee_of_mem_all oneOf
    have hallOf := isCallee_of_mem_all allOf
    rw [codeOf_eq, mem_calls_withFields] at h
    rcases h with h | h
    · simp only [callsOfEntries_append, callsOfEntries_type, callsOfEntries_textField,
        callsOfEntries_countField, callsOfEntries_boundField, callsOfEntries_numbers,
        callsOfEntries_truth, callsOfEntries_boxedField, callsOfEntries_entries,
        callsOfEntries_texts, callsOfEntries_nodes, List.nil_append, List.append_nil,
        List.mem_append] at h
      rcases h with ((((h | h) | h) | h) | h) | h
      · exact (hitems h).mono fun ref href => by simp [Schema.references, href]
      · exact (hproperties h).mono fun ref href => by simp [Schema.references, href]
      · exact (hadditional h).mono fun ref href => by simp [Schema.references, href]
      · exact (hpropertyNames h).mono fun ref href => by simp [Schema.references, href]
      · exact (honeOf h).mono fun ref href => by simp [Schema.references, href]
      · exact (hallOf h).mono fun ref href => by simp [Schema.references, href]
    · exact (isCallee_of_mem_baseOf h).mono fun ref href => by simp_all [Schema.references]

theorem isCallee_of_mem_option : (value : Option Schema) →
    builder ∈ ((codeOfOption callees value).map Code.calls).getD [] →
    IsCallee callees (Schema.referencesOfOption value) builder
  | none, h => by simp [codeOfOption] at h
  | some node, h => isCallee_of_mem_calls node h

theorem isCallee_of_mem_all : (nodes : List Schema) → builder ∈ callsOfAll (codeOfAll callees nodes) →
    IsCallee callees (Schema.referencesOfAll nodes) builder
  | [], h => by simp [codeOfAll, callsOfAll] at h
  | node :: rest, h => by
    rcases List.mem_append.mp h with h | h
    · exact (isCallee_of_mem_calls node h).mono fun ref href => by simp [Schema.referencesOfAll, href]
    · exact (isCallee_of_mem_all rest h).mono fun ref href => by simp [Schema.referencesOfAll, href]

theorem isCallee_of_mem_entries : (entries : List (String × Schema)) →
    builder ∈ callsOfEntries (codeOfEntries callees entries) →
    IsCallee callees (Schema.referencesOfEntries entries) builder
  | [], h => by simp [codeOfEntries, callsOfEntries] at h
  | (_, node) :: rest, h => by
    rcases List.mem_append.mp h with h | h
    · exact (isCallee_of_mem_calls node h).mono fun ref href => by
        simp [Schema.referencesOfEntries, href]
    · exact (isCallee_of_mem_entries rest h).mono fun ref href => by
        simp [Schema.referencesOfEntries, href]

end

end Builder

end MessageSchema
