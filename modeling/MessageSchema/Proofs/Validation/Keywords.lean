import MessageSchema.Proofs.Dictionary
import MessageSchema.Proofs.Validation.Conformance
import MessageSchema.Shape

/-!
# What the keywords of a message mean

The nodes that the schema of a message is made of, read by a validator: references, requirements, the
type of a value, the items of a list, and the keys and values of a map.

## Main results

* `Schema.judge_reference`, `Schema.judge_rootReference`: a reference is judged as what it refers to.
* `Schema.judge_value`: the node of a value without constraints.
* `Schema.judge_list`, `Schema.judge_map`: the nodes of a list and of a map.
-/

namespace MessageSchema

namespace Schema

variable {follow : String → Instance → Bool} {v : Instance}

/-! ### Keywords that say nothing -/

@[simp] theorem judgeItems_true : judgeItems (fun _ => true) v = true := by
  cases v with
  | array items => exact List.all_eq_true.mpr fun _ _ => rfl
  | _ => rfl

@[simp] theorem judgeMembers_true : judgeMembers (fun _ _ => true) v = true := by
  cases v with
  | object members => exact List.all_eq_true.mpr fun _ _ => rfl
  | _ => rfl

@[simp] theorem judgeRequired_nil : judgeRequired [] v = true := by
  cases v <;> rfl

@[simp] theorem judgeEnum_nil : judgeEnum [] v = true := rfl

@[simp] theorem judgeOne_nil : judgeOne [] = true := rfl

/-- A reference is judged as what it refers to. -/
@[simp] theorem judge_reference (name : String) :
    (reference name).judge follow v = follow (refStart ++ name) v := by
  rw [judge_eq]
  simp [reference, Dictionary.get?]

/-- A reference that carries a registry is judged as what it refers to. -/
@[simp] theorem judge_rootReference (name : String) (registry : Registry) :
    (rootReference name registry).judge follow v = follow (refStart ++ name) v := by
  rw [judge_eq]
  simp [rootReference, Dictionary.get?]

/-- A node that asks for a property is about objects. -/
theorem judge_requiring (name : String) (members : List (String × Instance)) :
    (requiring name).judge follow (.object members) = Instance.has members name := by
  rw [judge_eq]
  simp [requiring, Dictionary.get?, judgeRequired]

/-! ### Values -/

/-- The node of a value without constraints: what it refers to, its type and its numbers. -/
theorem judge_value (kind : ValueKind) :
    ({ kind } : Value).toSchema.judge follow v =
      ((kind.target?.map (refStart ++ ·)).all (follow · v) && kind.type?.all (·.admits v) &&
        judgeEnum (kind.numbers.map Int32.toInt64) v) := by
  rw [judge_eq]
  simp [Value.toSchema, Dictionary.get?]

/-- Title, description and counts are annotations. -/
theorem judge_toSchema (property : Property) :
    property.toSchema.judge follow v = property.bareSchema.judge follow v := by
  rw [judge_eq, judge_eq, Property.toSchema]

theorem judge_list (items : Schema) :
    ({ typed .array with items := some items } : Schema).judge follow v = true ↔
      ∃ list, v = .array list ∧ ∀ item ∈ list, items.judge follow item = true := by
  rw [judge_eq]
  cases v <;> simp [typed, Dictionary.get?, PrimitiveType.admits, judgeItems, judgeMembers]

theorem judge_map (keyPattern : Option String) (values : Schema) :
    ({ typed .object with
        additionalProperties := some values
        propertyNames := keyPattern.map fun pattern => { pattern := some pattern } } :
      Schema).judge follow v = true ↔
      ∃ members, v = .object members ∧ ∀ name w, (name, w) ∈ members →
        keyPattern.all (judgePattern · (.text name)) = true ∧ values.judge follow w = true := by
  have hname : ∀ name : String, judgeOption follow
      (keyPattern.map fun pattern => { pattern := some pattern }) (.text name) =
        keyPattern.all (judgePattern · (.text name)) := by
    intro name
    cases keyPattern with
    | none => rfl
    | some pattern =>
      rw [Option.map_some, judgeOption, judge_eq]
      simp [Dictionary.get?]
  rw [judge_eq]
  cases v with
  | object members =>
    simp only [typed, judgeMembers, hname]
    simp [Dictionary.get?, PrimitiveType.admits, judgeRequired]
    constructor
    · rintro ⟨hvalues, hkeys⟩ name w hmem
      exact ⟨hkeys name w hmem, hvalues name w hmem⟩
    · intro h
      exact ⟨fun name w hmem => (h name w hmem).2, fun name w hmem => (h name w hmem).1⟩
  | _ => simp [typed, Dictionary.get?, PrimitiveType.admits]

end Schema

end MessageSchema
