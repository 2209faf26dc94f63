import MessageSchema.Json.Value
import MessageSchema.Proofs.Dictionary

/-!
# Values with their members in some order

A document has the members of an object in the order in which they are written, and a value in memory
has them in key order. What is read from a value does not depend on the order, and so statements about
reading are made of any arrangement.

## Main definitions

* `Json.inKeyOrder`: a value with the members of its objects in key order, all the way down.
* `Json.Arranges`: a function that does nothing to a value but put members into some order.

## Main results

* `Json.arranges_id`, `Json.arranges_inKeyOrder`: the order of writing and key order.
-/

namespace MessageSchema

namespace Json

mutual

/-- The value with the members of its objects in key order, all the way down. -/
def inKeyOrder : Json → Json
  | .array items => .array (itemsInKeyOrder items)
  | .object members => .object (Dictionary.ofList (membersInKeyOrder members))
  | value => value

/-- The items of an array in key order inside. -/
def itemsInKeyOrder : List Json → List Json
  | [] => []
  | item :: rest => inKeyOrder item :: itemsInKeyOrder rest

/-- The members of an object in key order inside. -/
def membersInKeyOrder : List (String × Json) → List (String × Json)
  | [] => []
  | (key, value) :: rest => (key, inKeyOrder value) :: membersInKeyOrder rest

end

theorem itemsInKeyOrder_eq_map (items : List Json) : itemsInKeyOrder items = items.map inKeyOrder := by
  induction items with
  | nil => rfl
  | cons item rest ih => rw [itemsInKeyOrder, ih, List.map_cons]

theorem membersInKeyOrder_eq_map (members : List (String × Json)) :
    membersInKeyOrder members = members.map fun (key, value) => (key, inKeyOrder value) := by
  induction members with
  | nil => rfl
  | cons member rest ih => rw [membersInKeyOrder, ih, List.map_cons]

/-- Nothing happens to a value but that the members of its objects are put into some order. -/
structure Arranges (arrange : Json → Json) : Prop where
  leaf : ∀ {value}, value.depth = 0 → arrange value = value
  array : ∀ items, arrange (.array items) = .array (items.map arrange)
  /-- In an object no key is repeated. -/
  object : ∀ {members}, (Dictionary.keys members).Nodup →
    ∃ arranged, arrange (.object members) = .object arranged ∧
      arranged.Perm (members.map fun (key, value) => (key, arrange value))

theorem arranges_id : Arranges id where
  leaf _ := rfl
  array items := by rw [List.map_id, id]
  object {members} _ := ⟨members, rfl, by simp⟩

theorem arranges_inKeyOrder : Arranges inKeyOrder where
  leaf {value} h := by
    cases value with
    | array items => simp [depth] at h
    | object members => simp [depth] at h
    | _ => rfl
  array items := by rw [inKeyOrder, itemsInKeyOrder_eq_map]
  object {members} h := by
    refine ⟨_, rfl, ?_⟩
    rw [membersInKeyOrder_eq_map]
    refine Dictionary.ofList_perm ?_
    rwa [Dictionary.keys, List.map_map]

/-! ### Depth -/

theorem depth_le_depthOfItems {items : List Json} {item : Json} (h : item ∈ items) :
    item.depth ≤ depthOfItems items := by
  induction items with
  | nil => cases h
  | cons first rest ih =>
    rcases List.mem_cons.mp h with rfl | h
    · exact le_max_left _ _
    · exact (ih h).trans (le_max_right _ _)

theorem depth_le_depthOfMembers {members : List (String × Json)} {key : String} {value : Json}
    (h : (key, value) ∈ members) : value.depth ≤ depthOfMembers members := by
  induction members with
  | nil => cases h
  | cons first rest ih =>
    rcases List.mem_cons.mp h with rfl | h
    · exact le_max_left _ _
    · exact (ih h).trans (le_max_right _ _)

theorem Arranges.depth_lt_of_mem_items {arrange : Json → Json} (h : Arranges arrange)
    {items : List Json} {item : Json} (hitem : item ∈ items) :
    (arrange item).depth < (arrange (.array items)).depth := by
  rw [h.array, depth]
  exact Nat.lt_succ_of_le (depth_le_depthOfItems (List.mem_map_of_mem hitem))

theorem Arranges.depth_lt_of_mem_members {arrange : Json → Json} (h : Arranges arrange)
    {members : List (String × Json)} (hnodup : (Dictionary.keys members).Nodup) {key : String}
    {value : Json} (hmember : (key, value) ∈ members) :
    (arrange value).depth < (arrange (.object members)).depth := by
  obtain ⟨arranged, heq, hperm⟩ := h.object hnodup
  have hmem : (key, arrange value) ∈ arranged :=
    hperm.mem_iff.mpr (List.mem_map.mpr ⟨_, hmember, rfl⟩)
  rw [heq, depth]
  exact Nat.lt_succ_of_le (depth_le_depthOfMembers hmem)

end Json

end MessageSchema
