import MessageSchema.Proofs.Overlay.Ignored

/-!
# Which members an object has to have

The schema of a message says in three keywords which members an object has: some are required, and the
alternatives, of a single group or of several groups jointly, choose among the rest. What the keywords
say of an object depends on nothing but its keys, and it is the same rule for each group however many
there are: exactly one member of the group that is not left out.

## Main definitions

* `Instance.keySet`: the keys of an object.
* `Schema.judgePresence`: what the three keywords of a node say.
* `Message.Permits`: the rule for keys that a message declares.

## Main results

* `Message.permits_keySet_iff`: the rule, one name at a time.
* `Shape.judgePresence_iff_permits`: the keywords state the rule of the fields that are kept.
-/

namespace MessageSchema

variable {pool : Pool} {selected : List String} {message : Message} {shape : Schema}
  {follow : String → Instance → Bool} {members : List (String × Instance)}

/-- The keys of an object. -/
def Instance.keySet (members : List (String × Instance)) : Set String :=
  {name | has members name = true}

/-- What a node says about the presence of members: the required ones are there, exactly one of the
alternatives holds, and all joint requirements hold. -/
def Schema.judgePresence (follow : String → Instance → Bool) (node : Schema) (v : Instance) : Bool :=
  judgeRequired node.required v && judgeOne (node.oneOf.map (·.judge follow v)) &&
    node.allOf.all (·.judge follow v)

/-- A set of keys has all fields that an instance has to have, and exactly one member of each oneof
group that has members. -/
structure Message.Permits (message : Message) (keys : Set String) : Prop where
  mandatory : ∀ field ∈ message.fields, field.IsMandatory → field.name ∈ keys
  groups : ∀ group ∈ message.oneofs, group.synthetic = false → message.membersOf group ≠ [] →
    ∃! field, field ∈ message.membersOf group ∧ field.name ∈ keys

/-- Among fields with different names exactly one is a member if exactly one name is that of one. -/
theorem Instance.hasOneOf_iff {fields : List Field} (hnames : (fields.map (·.name)).Nodup) :
    Instance.HasOneOf members (fields.map (·.name)) ↔
      ∃! field, field ∈ fields ∧ field.name ∈ keySet members := by
  constructor
  · rintro ⟨name, hname, hothers⟩
    obtain ⟨field, hfield, rfl⟩ := List.mem_map.mp hname
    refine ⟨field, ⟨hfield, (hothers _ hname).mpr rfl⟩, ?_⟩
    rintro other ⟨hother, hkey⟩
    exact List.inj_on_of_nodup_map hnames hother hfield
      ((hothers _ (List.mem_map_of_mem hother)).mp hkey)
  · rintro ⟨field, ⟨hfield, hkey⟩, hunique⟩
    refine ⟨field.name, List.mem_map_of_mem hfield, fun name hname => ?_⟩
    obtain ⟨other, hother, rfl⟩ := List.mem_map.mp hname
    constructor
    · intro hhas
      rw [hunique other ⟨hother, hhas⟩]
    · intro heq
      rw [heq]
      exact hkey

/-- The rule for keys, one name at a time. -/
theorem Message.permits_keySet_iff (hnames : (message.fields.map (·.name)).Nodup) :
    message.Permits (Instance.keySet members) ↔
      (∀ field ∈ message.fields, field.IsMandatory → Instance.has members field.name = true) ∧
      ∀ group ∈ message.oneofs, group.synthetic = false → message.membersOf group ≠ [] →
        Instance.HasOneOf members ((message.membersOf group).map (·.name)) := by
  have hgroup (group : Oneof) : Instance.HasOneOf members ((message.membersOf group).map (·.name)) ↔
      ∃! field, field ∈ message.membersOf group ∧ field.name ∈ Instance.keySet members :=
    Instance.hasOneOf_iff (hnames.sublist (List.filter_sublist.map _))
  constructor
  · rintro ⟨hmandatory, hgroups⟩
    exact ⟨hmandatory, fun group hmem hreal hne => (hgroup group).mpr (hgroups group hmem hreal hne)⟩
  · rintro ⟨hmandatory, hgroups⟩
    exact ⟨hmandatory, fun group hmem hreal hne => (hgroup group).mp (hgroups group hmem hreal hne)⟩

namespace Shape

/-- The fields that are kept have different names if all fields have. -/
theorem nodup_kept (hnames : (message.fields.map (·.name)).Nodup) :
    (message.kept.fields.map (·.name)).Nodup :=
  hnames.sublist (List.filter_sublist.map _)

/-- The properties are named as the fields that are kept. -/
theorem keys_properties_perm (hnames : (message.fields.map (·.name)).Nodup)
    (h : ofMessage pool selected message = .ok shape) :
    (Dictionary.keys shape.properties).Perm (message.kept.fields.map (·.name)) := by
  obtain ⟨entries, -, hfields, rfl⟩ := exists_entries h
  rw [← hfields, ← keys_entries]
  refine Dictionary.keys_ofList_perm ?_
  rw [keys_entries, hfields]
  exact nodup_kept hnames

/-- **The presence rules of a message.** Its properties are named as the fields that are kept, an
object has the members that the schema asks for exactly if its keys obey the rule of the fields that
are kept, and the others have no effect. -/
theorem judgePresence_iff_permits (hnames : (message.fields.map (·.name)).Nodup)
    (h : ofMessage pool selected message = .ok shape) :
    (Dictionary.keys shape.properties).Perm (message.kept.fields.map (·.name)) ∧
      (∀ (keys : Set String) (follow : String → Instance → Bool)
        (members : List (String × Instance)), Instance.keySet members = keys →
          (shape.judgePresence follow (.object members) = true ↔ message.kept.Permits keys)) ∧
      ofMessage pool selected message.kept = .ok shape := by
  refine ⟨keys_properties_perm hnames h, ?_, ofMessage_kept h⟩
  rintro keys follow members rfl
  have hkept := nodup_kept hnames
  obtain ⟨entries, -, hfields, rfl⟩ := exists_entries h
  rw [Message.permits_keySet_iff hkept, Schema.judgePresence, Bool.and_assoc, Bool.and_eq_true,
    Bool.and_eq_true]
  simp only [ofEntries, hfields]
  exact and_congr judge_required (judge_groups hkept)

/-- A payment by one of several means at one of two times. One of the means is left out, as are a
field that an instance would have to have and the only member of a group; the group of `note` is made
up, and that of `extra` is not declared. -/
def payment : Message where
  name := "Payment"
  fullName := "pay.Payment"
  file := "pay.proto"
  fields := [
    { name := "id", number := 1, kind := .string },
    { name := "note", number := 2, kind := .string, optional := true, oneof := some "_note" },
    { name := "card", number := 3, kind := .string, oneof := some "means" },
    { name := "soon", number := 4, kind := .bool, oneof := some "time" },
    { name := "cash", number := 5, kind := .bool, oneof := some "means" },
    { name := "coupon", number := 6, kind := .string, oneof := some "means"
      overlay := some (.object [("ignore", .boolean true)]) },
    { name := "later", number := 7, kind := .string, oneof := some "time" },
    { name := "secret", number := 8, kind := .string
      overlay := some (.object [("ignore", .boolean true)]) },
    { name := "trace", number := 9, kind := .string, oneof := some "debug"
      overlay := some (.object [("ignore", .boolean true)]) },
    { name := "extra", number := 10, kind := .string, oneof := some "lost" },
    { name := "tags", number := 11, kind := .string, cardinality := .list }]
  oneofs := [⟨"_note", true⟩, ⟨"means", false⟩, ⟨"time", false⟩, ⟨"debug", false⟩]

/-- Two groups are left, and an object has one member of each next to the required one. -/
theorem judgePresence_iff_permits_payment : (payment.fields.map (·.name)).Nodup ∧
    ∃ shape, ofMessage (DescriptorSet.mk [] []).pool [] payment = .ok shape ∧
      ofMessage (DescriptorSet.mk [] []).pool [] payment.kept = .ok shape ∧
      (Dictionary.keys shape.properties).Perm
        ["id", "note", "card", "soon", "cash", "later", "extra", "tags"] ∧
      shape.allOf.length = 2 ∧
      (∀ follow, shape.judgePresence follow
        (.object [("id", .null), ("later", .null), ("card", .null)]) = true) ∧
      (∀ follow, shape.judgePresence follow
        (.object [("id", .null), ("later", .null), ("coupon", .null)]) = false) ∧
      ∀ follow, shape.judgePresence follow
        (.object [("id", .null), ("soon", .null), ("card", .null), ("cash", .null)]) = false := by
  have hnames : (payment.fields.map (·.name)).Nodup := by decide
  obtain ⟨shape, hshape, hjoint⟩ : ∃ shape,
      ofMessage (DescriptorSet.mk [] []).pool [] payment = .ok shape ∧
        decide (shape.allOf.length = 2) = true :=
    Except.exists_of_succeedsWith (by decide +kernel)
  obtain ⟨hkeys, hpermits, hkept⟩ := judgePresence_iff_permits hnames hshape
  have hfields : payment.kept.fields.map (·.name) =
      ["id", "note", "card", "soon", "cash", "later", "extra", "tags"] := by decide +kernel
  refine ⟨hnames, shape, hshape, hkept, hfields ▸ hkeys, of_decide_eq_true hjoint, ?_, ?_, ?_⟩
  · intro follow
    rw [hpermits _ follow _ rfl, Message.permits_keySet_iff (nodup_kept hnames)]
    decide +kernel
  · intro follow
    rw [← Bool.not_eq_true, hpermits _ follow _ rfl,
      Message.permits_keySet_iff (nodup_kept hnames)]
    decide +kernel
  · intro follow
    rw [← Bool.not_eq_true, hpermits _ follow _ rfl,
      Message.permits_keySet_iff (nodup_kept hnames)]
    decide +kernel

end Shape

end MessageSchema
