import MessageSchema.Proofs.Declarations
import MessageSchema.Proofs.Reached
import MessageSchema.Proofs.Selection.Candidates
import MessageSchema.Proofs.Shape

/-!
# Pools that agree

Everything that is looked up for a message is named in it: by the type of a field, by the entry of a
map, or by the full name of a message that has been found. So two pools that agree on the names in a
message, and go on agreeing on the names in what they find, cannot be told apart.

## Main definitions

* `Message.names`: the names in a message and in all messages nested in it.
* `Pool.NamesOf`: the names that are reached from a file.
* `Pool.Agree`: two pools give the same answers on some names.
* `Message.Within`: all names in a message are among some names.

## Main results

* `Shape.ofMessage_congr`: the schema of a message depends on the names in it alone.
* `Selection.dependencies_congr`: so do the messages that its fields hold.
-/

namespace MessageSchema

/-- Whether a field refers to a type: a message, an enum, or the entry of a map. -/
def Field.refersToType (field : Field) : Bool :=
  field.kind.isMessage || field.kind = .enum || field.isMap

/-- The name of the type of a field, if it has one. A field that refers to a type without naming it
asks for the empty name. -/
def Field.typeNames (field : Field) : List String :=
  if field.typeName.isSome || field.refersToType then [field.target] else []

namespace Message

/-- The names in a message: full names and names of types, of the message and of all messages nested
in it. -/
def names (message : Message) : List String :=
  message.withNested.flatMap fun inner => inner.fullName :: inner.fields.flatMap (·.typeNames)

/-- All names in a message are among the given ones. -/
def Within (among : String → Prop) (message : Message) : Prop :=
  ∀ name ∈ message.names, among name

variable {among : String → Prop} {message inner : Message} {field : Field}

theorem Within.fullName (h : message.Within among) : among message.fullName :=
  h _ (List.mem_flatMap.mpr ⟨message, mem_withNested_self message, by simp⟩)

theorem Within.target (h : message.Within among) (hfield : field ∈ message.fields)
    (hrefers : field.refersToType = true) : among field.target := by
  refine h _ (List.mem_flatMap.mpr ⟨message, mem_withNested_self message, ?_⟩)
  exact List.mem_cons_of_mem _ (List.mem_flatMap.mpr
    ⟨field, hfield, by simp [Field.typeNames, hrefers]⟩)

theorem Within.nested (h : message.Within among) (hinner : inner ∈ message.nested) :
    inner.Within among := by
  intro name hname
  obtain ⟨deep, hdeep, hname⟩ := List.mem_flatMap.mp hname
  refine h name (List.mem_flatMap.mpr ⟨deep, ?_, hname⟩)
  rw [withNested_eq]
  exact List.mem_append_left _ (mem_allWithNested.mpr ⟨inner, hinner, hdeep⟩)

end Message

namespace Pool

/-- The names that are reached from a file: those in its messages, and those in the messages that the
pool finds under names that are reached. -/
def NamesOf (pool : Pool) (file : File) : String → Prop :=
  Reached (fun name other => ∃ message, pool.message? name = some message ∧ other ∈ message.names)
    (fun _ => False) (fun name => ∃ message ∈ file.messages, name ∈ message.names)

/-- Two pools give the same answers on some names. -/
structure Agree (pool pool' : Pool) (among : String → Prop) : Prop where
  message? : ∀ name, among name → pool.message? name = pool'.message? name
  enumeration? : ∀ name, among name → pool.enumeration? name = pool'.enumeration? name
  packageOf? : ∀ name, among name → pool.packageOf? name = pool'.packageOf? name

/-- Two pools give the same answers on some names, and what they find has no other names in it. -/
structure AgreeWithin (pool pool' : Pool) (among : String → Prop) : Prop extends
    Agree pool pool' among where
  within : ∀ name message, among name → pool.message? name = some message → message.Within among

theorem Agree.within {pool pool' : Pool} {file : File}
    (h : pool.Agree pool' (pool.NamesOf file)) : pool.AgreeWithin pool' (pool.NamesOf file) where
  toAgree := h
  within _ message hname hmessage _ hother := .step hname ⟨message, hmessage, hother⟩ id

theorem within_of_mem_messages (pool : Pool) {file : File} {message : Message}
    (h : message ∈ file.messages) : message.Within (pool.NamesOf file) := fun _ hname =>
  .start ⟨message, h, hname⟩ id

/-- Names that hold those of a file and are closed under lookup hold all that are reached from it. -/
theorem mem_of_namesOf {pool : Pool} {file : File} {names : List String}
    (hstart : ∀ message ∈ file.messages, ∀ name ∈ message.names, name ∈ names)
    (hclosed : ∀ name ∈ names, ∀ message ∈ pool.message? name, ∀ other ∈ message.names, other ∈ names)
    {name : String} (h : pool.NamesOf file name) : name ∈ names := by
  induction h with
  | start hname =>
    obtain ⟨message, hmessage, hname⟩ := hname
    exact hstart message hmessage _ hname
  | step _ hfound _ ih =>
    obtain ⟨message, hmessage, hname⟩ := hfound
    exact hclosed _ ih message hmessage _ hname

variable {pool pool' : Pool} {among : String → Prop} {owner message : Message} {field : Field}

theorem AgreeWithin.referenced_congr (h : pool.AgreeWithin pool' among) (owner : Message)
    (hname : among field.target) : pool.referenced owner field = pool'.referenced owner field := by
  rw [referenced, referenced, h.message? _ hname]

theorem AgreeWithin.entryFields_congr (h : pool.AgreeWithin pool' among) (owner : Message)
    (hname : among field.target) : pool.entryFields owner field = pool'.entryFields owner field := by
  rw [entryFields, entryFields, h.referenced_congr owner hname]

/-- The value of a map entry refers to a name among the given ones. -/
theorem AgreeWithin.entry_value (h : pool.AgreeWithin pool' among) (hname : among field.target)
    {entry : Message} {key value : Field}
    (hentry : pool.entryFields owner field = .ok (entry, key, value))
    (hrefers : value.refersToType = true) : among value.target := by
  obtain ⟨hfound, -, hvalue⟩ := entryFields_eq_ok.mp hentry
  exact (h.within _ entry hname hfound).target (List.mem_of_find?_eq_some hvalue) hrefers

/-- What a field holds has no other names in it. -/
theorem AgreeWithin.within_of_holds (h : pool.AgreeWithin pool' among) (howner : owner.Within among)
    (hfield : field ∈ owner.fields) (hholds : pool.Holds field message) : message.Within among := by
  rw [Holds] at hholds
  split at hholds
  · rename_i hmap
    obtain ⟨entry, value, hentry, hvalue, hkind, hmessage⟩ := hholds
    have hname : among field.target := howner.target hfield (by simp [Field.refersToType, hmap])
    have hvalueName : among value.target := (h.within _ entry hname hentry).target
      (List.mem_of_find?_eq_some hvalue) (by simp [Field.refersToType, hkind])
    exact h.within _ message hvalueName hmessage
  · obtain ⟨hkind, hmessage⟩ := hholds
    exact h.within _ message (howner.target hfield (by simp [Field.refersToType, hkind])) hmessage

end Pool

open Pool

variable {pool pool' : Pool} {among : String → Prop} {owner message : Message} {field : Field}
  {fields : List Field}

/-! ### The schema of a message -/

theorem Value.ofField_congr (h : pool.AgreeWithin pool' among) (owner : Message)
    (hname : field.refersToType = true → among field.target) :
    Value.ofField pool owner field = Value.ofField pool' owner field := by
  unfold Value.ofField
  cases hkind : field.kind with
  | message | group =>
    rw [h.referenced_congr owner (hname (by simp [Field.refersToType, hkind, FieldKind.isMessage]))]
  | enum => rw [h.enumeration? _ (hname (by simp [Field.refersToType, hkind]))]
  | _ => rfl

theorem Property.ofField_congr (h : pool.AgreeWithin pool' among) (howner : owner.Within among)
    (hfield : field ∈ owner.fields) (title description : String) :
    Property.ofField pool owner field title description =
      Property.ofField pool' owner field title description := by
  have hvalue : Value.ofField pool owner field = Value.ofField pool' owner field :=
    Value.ofField_congr h owner (howner.target hfield)
  unfold Property.ofField
  cases hcardinality : field.cardinality with
  | singular => rw [Property.single, Property.single, hvalue]
  | list => rw [Property.list, Property.list, hvalue]
  | map =>
    have hname : among field.target :=
      howner.target hfield (by simp [Field.refersToType, Field.isMap, hcardinality])
    rw [Property.map, Property.map, ← h.entryFields_congr owner hname]
    refine Except.bind_congr_ok fun found hentry => ?_
    obtain ⟨entry, key, value⟩ := found
    dsimp only
    rw [Value.ofField_congr h entry (h.entry_value hname hentry)]

namespace Shape

variable {selected : List String}

theorem property?_congr (h : pool.AgreeWithin pool' among) (howner : owner.Within among)
    (hfield : field ∈ owner.fields) :
    property? pool selected owner field = property? pool' selected owner field := by
  unfold property?
  simp only [Property.ofField_congr h howner hfield]

theorem entriesOf_congr (h : pool.AgreeWithin pool' among) (howner : owner.Within among)
    (hfields : ∀ field ∈ fields, field ∈ owner.fields) :
    entriesOf pool selected owner fields = entriesOf pool' selected owner fields := by
  induction fields with
  | nil => rfl
  | cons field rest ih =>
    rw [entriesOf, entriesOf, property?_congr h howner (hfields field (by simp)),
      ih fun other hother => hfields other (List.mem_cons_of_mem _ hother)]

/-- **The schema of a message depends on the names in it alone.** -/
theorem ofMessage_congr (h : pool.AgreeWithin pool' among) (hmessage : message.Within among) :
    ofMessage pool selected message = ofMessage pool' selected message := by
  unfold ofMessage
  rw [entriesOf_congr h hmessage fun _ => id]

end Shape

/-! ### The dependencies of a message -/

namespace Selection

theorem dependency?_congr (h : pool.AgreeWithin pool' among) (howner : owner.Within among)
    (hfield : field ∈ owner.fields) :
    dependency? pool owner field = dependency? pool' owner field := by
  unfold dependency?
  cases hkind : field.kind.isMessage with
  | false => rfl
  | true =>
    have hname : among field.target := howner.target hfield (by simp [Field.refersToType, hkind])
    rw [h.referenced_congr owner hname, ← h.entryFields_congr owner hname]
    simp only [Bool.not_true, Bool.false_eq_true, if_false]
    split
    · refine Except.bind_congr_ok fun found hentry => ?_
      obtain ⟨entry, key, value⟩ := found
      dsimp only
      split
      · rename_i hvalue
        have hrefers : value.refersToType = true := by simp [Field.refersToType, hvalue]
        rw [h.referenced_congr entry (h.entry_value hname hentry hrefers)]
      · rfl
    · rfl

theorem dependenciesOf_congr (h : pool.AgreeWithin pool' among) (howner : owner.Within among)
    (hfields : ∀ field ∈ fields, field ∈ owner.fields) :
    dependenciesOf pool owner fields = dependenciesOf pool' owner fields := by
  induction fields with
  | nil => rfl
  | cons field rest ih =>
    rw [dependenciesOf, dependenciesOf, dependency?_congr h howner (hfields field (by simp)),
      ih fun other hother => hfields other (List.mem_cons_of_mem _ hother)]

/-- **The dependencies of a message depend on the names in it alone.** -/
theorem dependencies_congr (h : pool.AgreeWithin pool' among) (hmessage : message.Within among) :
    dependencies pool message = dependencies pool' message :=
  dependenciesOf_congr h hmessage fun _ => id

/-- What a message needs has no other names in it. -/
theorem within_of_needs (h : pool.AgreeWithin pool' among) (hmessage : message.Within among)
    {other : Message} (hneeds : Needs pool message other) : other.Within among := by
  rcases hneeds with ⟨field, hfield, -, hholds⟩ | hnested
  · exact h.within_of_holds hmessage hfield hholds
  · exact hmessage.nested hnested

end Selection

end MessageSchema
