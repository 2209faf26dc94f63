import MessageSchema.Proofs.Cut
import MessageSchema.Proofs.Dictionary
import MessageSchema.Schema.References

/-!
# Which references a node holds

## Main definitions

* `Schema.nodes`: a node and all nodes in it.

## Main results

* `Schema.references_eq_flatMap`: the references in a node are those of its nodes.
* `Schema.mem_referencesOfAll`, `Schema.mem_referencesOfEntries`: a reference in several nodes is a
  reference in one of them.
* `Schema.danglingReferences_rootReference`: a root whose registry is closed under references leaves
  none of them open.
-/

namespace MessageSchema

namespace Schema

mutual

/-- The node and all nodes in it, in the order in which a reader meets them. -/
def nodes : Schema → List Schema
  | node@⟨_, _, _, _, _, _, _, _, _, _, _, _, _, _, _, items, _, _, _, properties, _,
      additionalProperties, propertyNames, _, _, oneOf, allOf, defs⟩ =>
    node :: (nodesOfOption items ++ nodesOfOption additionalProperties ++
      nodesOfOption propertyNames ++ nodesOfEntries properties ++ nodesOfAll oneOf ++
      nodesOfAll allOf ++ nodesOfEntries defs)

/-- The nodes in a node that may be missing. -/
def nodesOfOption : Option Schema → List Schema
  | none => []
  | some node => nodes node

/-- The nodes in several nodes. -/
def nodesOfAll : List Schema → List Schema
  | [] => []
  | node :: rest => nodes node ++ nodesOfAll rest

/-- The nodes in the nodes under several keys. -/
def nodesOfEntries : List (String × Schema) → List Schema
  | [] => []
  | (_, node) :: rest => nodes node ++ nodesOfEntries rest

end

/-- A node comes in front of all nodes in it. -/
theorem nodes_eq_cons (node : Schema) : node.nodes = node ::
    (nodesOfOption node.items ++ nodesOfOption node.additionalProperties ++
      nodesOfOption node.propertyNames ++ nodesOfEntries node.properties ++
      nodesOfAll node.oneOf ++ nodesOfAll node.allOf ++ nodesOfEntries node.defs) := by
  cases node
  rfl

mutual

/-- The references in a node are those of the nodes in it. -/
theorem references_eq_flatMap : ∀ node : Schema,
    node.references = node.nodes.flatMap (·.ref.toList)
  | ⟨_, _, _, _, _, _, _, _, _, _, _, _, _, _, _, items, _, _, _, properties, _,
      additionalProperties, propertyNames, _, _, oneOf, allOf, defs⟩ => by
    simp only [references, nodes, List.flatMap_cons, List.flatMap_append,
      referencesOfOption_eq_flatMap items, referencesOfOption_eq_flatMap additionalProperties,
      referencesOfOption_eq_flatMap propertyNames, referencesOfEntries_eq_flatMap properties,
      referencesOfAll_eq_flatMap oneOf, referencesOfAll_eq_flatMap allOf,
      referencesOfEntries_eq_flatMap defs, List.append_assoc]

theorem referencesOfOption_eq_flatMap : ∀ node : Option Schema,
    referencesOfOption node = (nodesOfOption node).flatMap (·.ref.toList)
  | none => rfl
  | some node => references_eq_flatMap node

theorem referencesOfAll_eq_flatMap : ∀ nodes : List Schema,
    referencesOfAll nodes = (nodesOfAll nodes).flatMap (·.ref.toList)
  | [] => rfl
  | node :: rest => by
    rw [referencesOfAll, nodesOfAll, List.flatMap_append, references_eq_flatMap node,
      referencesOfAll_eq_flatMap rest]

theorem referencesOfEntries_eq_flatMap : ∀ entries : List (String × Schema),
    referencesOfEntries entries = (nodesOfEntries entries).flatMap (·.ref.toList)
  | [] => rfl
  | (_, node) :: rest => by
    rw [referencesOfEntries, nodesOfEntries, List.flatMap_append, references_eq_flatMap node,
      referencesOfEntries_eq_flatMap rest]

end

@[simp] theorem refName?_refStart (name : String) : refName? (refStart ++ name) = some name :=
  Text.stripStart?_append refStart name

theorem mem_referencesOfAll {ref : String} {nodes : List Schema} :
    ref ∈ referencesOfAll nodes ↔ ∃ node ∈ nodes, ref ∈ node.references := by
  induction nodes with
  | nil => simp [referencesOfAll]
  | cons node rest ih => simp [referencesOfAll, ih]

theorem mem_referencesOfEntries {ref : String} {entries : List (String × Schema)} :
    ref ∈ referencesOfEntries entries ↔ ∃ e ∈ entries, ref ∈ e.2.references := by
  induction entries with
  | nil => simp [referencesOfEntries]
  | cons e rest ih => simp [referencesOfEntries, ih]

theorem mem_references_rootReference {ref name : String} {registry : Registry} :
    ref ∈ (rootReference name registry).references ↔
      ref = refStart ++ name ∨ ∃ e ∈ registry, ref ∈ e.2.references := by
  simp [rootReference, references, referencesOfOption, referencesOfEntries, referencesOfAll,
    mem_referencesOfEntries]

/-- A registry that holds the root and all that its own schemas refer to leaves nothing open. -/
theorem danglingReferences_rootReference {name : String} {registry : Registry}
    (hroot : Dictionary.contains name registry = true)
    (hclosed : ∀ e ∈ registry, ∀ ref ∈ e.2.references,
      ∃ other, ref = refStart ++ other ∧ Dictionary.contains other registry = true) :
    (rootReference name registry).danglingReferences = [] := by
  have hfound : ∀ other, Dictionary.contains other registry = true →
      registry.any (·.1 == other) = true := by
    intro other h
    obtain ⟨schema, h⟩ := Dictionary.contains_iff.mp h
    exact List.any_eq_true.mpr ⟨_, Dictionary.mem_of_get? h, by simp⟩
  refine List.filter_eq_nil_iff.mpr fun ref hmem => ?_
  have href : ref ∈ (rootReference name registry).references := by
    obtain ⟨e, he, rfl⟩ := List.mem_map.mp hmem
    obtain ⟨r, hr, rfl⟩ := List.mem_map.mp (Dictionary.mem_of_mem_ofList he)
    exact hr
  obtain ⟨other, rfl, hother⟩ : ∃ other, ref = refStart ++ other ∧
      Dictionary.contains other registry = true := by
    rcases mem_references_rootReference.mp href with rfl | ⟨e, he, hr⟩
    · exact ⟨name, rfl, hroot⟩
    · exact hclosed e he ref hr
  simpa [rootReference] using hfound other hother

end Schema

end MessageSchema
