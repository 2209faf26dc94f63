import MessageSchema.Schema.Basic

/-!
# References in a schema

## Main definitions

* `Schema.references`: all references in a node, in the order in which a reader meets them.
* `Schema.danglingReferences`: those that do not point into the registry of the node.
-/

namespace MessageSchema.Schema

mutual

/-- All references in a node: its own, then those of the items, of the values and names of further
properties, of the properties, of the alternatives, of the joint requirements and of the
registry. -/
def references : Schema → List String
  | ⟨ref, _, _, _, _, _, _, _, _, _, _, _, _, _, _, items, _, _, _, properties, _,
      additionalProperties, propertyNames, _, _, oneOf, allOf, defs⟩ =>
    ref.toList ++ referencesOfOption items ++ referencesOfOption additionalProperties ++
      referencesOfOption propertyNames ++ referencesOfEntries properties ++
      referencesOfAll oneOf ++ referencesOfAll allOf ++ referencesOfEntries defs

/-- The references in a node that may be missing. -/
def referencesOfOption : Option Schema → List String
  | none => []
  | some node => references node

/-- The references in several nodes. -/
def referencesOfAll : List Schema → List String
  | [] => []
  | node :: rest => references node ++ referencesOfAll rest

/-- The references in the nodes under several keys. -/
def referencesOfEntries : List (String × Schema) → List String
  | [] => []
  | (_, node) :: rest => references node ++ referencesOfEntries rest

end

/-- The types that a node refers to. -/
def referencedNames (node : Schema) : List String :=
  node.references.filterMap refName?

/-- The references in a node that name no entry of its own registry, in increasing order, each
once. -/
def danglingReferences (node : Schema) : List String :=
  let distinct := Dictionary.keys (.ofList (node.references.map (·, ())))
  distinct.filter fun ref => match refName? ref with
    | some name => !node.defs.any (·.1 == name)
    | none => true

end MessageSchema.Schema
