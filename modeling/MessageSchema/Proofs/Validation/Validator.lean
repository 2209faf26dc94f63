import MessageSchema.Dictionary
import MessageSchema.Proofs.Validation.Pointer
import MessageSchema.Proofs.Validation.Regex
import MessageSchema.Schema.References
import Mathlib.Data.Rat.Defs

/-!
# Validation of instances

An instance is valid against a node if every keyword of the node holds of it, as in Draft 2020-12. A
keyword that is about instances of one type holds of all others. The keywords that describe messages
are a reference, the type, the properties with further properties and their names, the required
properties, items, numbers to choose from, a pattern, and the two ways of combining nodes. All others
are annotations.

References can lead in circles, and a document says nothing about how long it takes to follow them. So
an instance is judged with a bound on how many references are followed one inside the other, and what
counts is the judgement that all large bounds give.

## Main definitions

* `Instance`: a JSON value.
* `Schema.judge`: the judgement of a node, given those of the references in it.
* `Schema.followIn`: the judgement of a reference, with a bound.
* `Schema.Accepts`, `Schema.Rejects`: the judgement of a document with all large bounds.

## Main results

* `Schema.judge_eq`: the keywords of a node one by one.
* `Schema.not_rejects_of_accepts`: no instance is both accepted and rejected.
-/

namespace MessageSchema

/-- A JSON value. -/
inductive Instance where
  | null
  | boolean (b : Bool)
  | number (x : ℚ)
  | text (s : String)
  | array (items : List Instance)
  /-- Members by name. -/
  | object (members : List (String × Instance))

namespace Instance

/-- Whether there is a member of a name. -/
def has (members : List (String × Instance)) (name : String) : Bool :=
  members.any (·.1 == name)

theorem sizeOf_lt_array {items : List Instance} {v : Instance} (h : v ∈ items) :
    sizeOf v < sizeOf (array items) := by
  have hitem := List.sizeOf_lt_of_mem h
  rw [array.sizeOf_spec]
  omega

theorem sizeOf_lt_object {members : List (String × Instance)} {name : String} {v : Instance}
    (h : (name, v) ∈ members) : sizeOf v < sizeOf (object members) := by
  have hmember := List.sizeOf_lt_of_mem h
  rw [object.sizeOf_spec]
  rw [Prod.mk.sizeOf_spec] at hmember
  omega

end Instance

/-- The instances of a type. A whole number is an integer however it is written. -/
def PrimitiveType.admits : PrimitiveType → Instance → Bool
  | .array, .array _ => true
  | .boolean, .boolean _ => true
  | .integer, .number x => x.isInt
  | .null, .null => true
  | .number, .number _ => true
  | .object, .object _ => true
  | .string, .text _ => true
  | _, _ => false

namespace Schema

/-! ### Keywords that refer to no other node -/

/-- An instance is one of some numbers, unless there are none. -/
def judgeEnum (numbers : List Int64) (v : Instance) : Bool :=
  numbers.isEmpty || match v with
    | .number x => numbers.any fun n => x == n.toInt
    | _ => false

/-- A pattern matches somewhere in a text. One that cannot be read matches nowhere. -/
def judgePattern (pattern : String) : Instance → Bool
  | .text s => (Regex.read? pattern).any (·.occursIn s)
  | _ => true

/-- An object has all members of some names. -/
def judgeRequired (names : List String) : Instance → Bool
  | .object members => names.all (Instance.has members)
  | _ => true

/-! ### Keywords with nodes in them -/

/-- What a node says about all items of an array. -/
def judgeItems (judge : Instance → Bool) : Instance → Bool
  | .array items => items.all judge
  | _ => true

/-- What nodes say about all members of an object. -/
def judgeMembers (judge : String → Instance → Bool) : Instance → Bool
  | .object members => members.all fun (name, v) => judge name v
  | _ => true

/-- Exactly one of some alternatives holds, unless there are none. -/
def judgeOne (judgements : List Bool) : Bool :=
  judgements.isEmpty || judgements.count true == 1

mutual

/-- The judgement of a node on an instance, given what references in it come to. -/
def judge (follow : String → Instance → Bool) : Schema → Instance → Bool
  | ⟨ref, type, _, _, _, pattern, _, _, _, _, _, _, _, _, enumValues, items, _, _, _, properties,
      required, additionalProperties, propertyNames, _, _, oneOf, allOf, _⟩, v =>
    ref.all (follow · v) && type.all (·.admits v) && judgeEnum enumValues v &&
      pattern.all (judgePattern · v) && judgeItems (judgeOption follow items) v &&
      judgeMembers (fun name member => (judgeEntry follow properties name member).getD
        (judgeOption follow additionalProperties member)) v &&
      judgeMembers (fun name _ => judgeOption follow propertyNames (.text name)) v &&
      judgeRequired required v && judgeOne (judgeEach follow oneOf v) &&
      (judgeEach follow allOf v).all id

/-- The judgement of a node that may be missing. -/
def judgeOption (follow : String → Instance → Bool) : Option Schema → Instance → Bool
  | none, _ => true
  | some node, v => judge follow node v

/-- The judgements of several nodes on one instance. -/
def judgeEach (follow : String → Instance → Bool) : List Schema → Instance → List Bool
  | [], _ => []
  | node :: rest, v => judge follow node v :: judgeEach follow rest v

/-- The judgement of the node under a key, if there is one. -/
def judgeEntry (follow : String → Instance → Bool) :
    List (String × Schema) → String → Instance → Option Bool
  | [], _, _ => none
  | (key, node) :: rest, name, v =>
    if key = name then some (judge follow node v) else judgeEntry follow rest name v

end

attribute [simp] judgeOption

variable {follow : String → Instance → Bool} {v : Instance}

theorem judgeEntry_eq (entries : List (String × Schema)) (name : String) (v : Instance) :
    judgeEntry follow entries name v = (Dictionary.get? name entries).map (·.judge follow v) := by
  induction entries with
  | nil => rfl
  | cons e rest ih =>
    rw [judgeEntry, Dictionary.get?]
    split
    · rfl
    · exact ih

theorem judgeEach_eq (nodes : List Schema) (v : Instance) :
    judgeEach follow nodes v = nodes.map (·.judge follow v) := by
  induction nodes with
  | nil => rfl
  | cons node rest ih => rw [judgeEach, ih, List.map_cons]

/-- The keywords of a node one by one. -/
theorem judge_eq (node : Schema) (v : Instance) : node.judge follow v =
    (node.ref.all (follow · v) && node.type.all (·.admits v) && judgeEnum node.enumValues v &&
      node.pattern.all (judgePattern · v) && judgeItems (judgeOption follow node.items) v &&
      judgeMembers (fun name member => ((Dictionary.get? name node.properties).map
        (·.judge follow member)).getD (judgeOption follow node.additionalProperties member)) v &&
      judgeMembers (fun name _ => judgeOption follow node.propertyNames (.text name)) v &&
      judgeRequired node.required v && judgeOne (node.oneOf.map (·.judge follow v)) &&
      node.allOf.all (·.judge follow v)) := by
  cases node
  rw [judge]
  simp only [judgeEntry_eq, judgeEach_eq, List.all_map, Function.id_comp]

/-! ### Documents -/

/-- What a reference comes to in a document, if no more than some references are followed one inside
the other. One that leads to no node accepts nothing. -/
def followIn (document : Schema) : ℕ → String → Instance → Bool
  | 0, _, _ => false
  | bound + 1, ref, v => (document.resolve? ref).any (·.judge (followIn document bound) v)

/-- The instance is valid: all large bounds say so. -/
def Accepts (document : Schema) (v : Instance) : Prop :=
  ∃ least, ∀ bound ≥ least, document.judge (followIn document bound) v = true

/-- The instance is not valid: all large bounds say so. -/
def Rejects (document : Schema) (v : Instance) : Prop :=
  ∃ least, ∀ bound ≥ least, document.judge (followIn document bound) v = false

/-- No instance is both accepted and rejected. -/
theorem not_rejects_of_accepts {document : Schema} (h : document.Accepts v) :
    ¬ document.Rejects v := by
  rintro ⟨least', hrejects⟩
  obtain ⟨least, haccepts⟩ := h
  have hlarge := haccepts (max least least') (le_max_left _ _)
  rw [hrejects (max least least') (le_max_right _ _)] at hlarge
  cases hlarge

end Schema

end MessageSchema
