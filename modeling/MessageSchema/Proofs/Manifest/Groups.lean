import MessageSchema.Proofs.Manifest.Messages

/-!
# Oneof groups of a manifest

An optional field gets a group of its own, whose name is made up from the name of the field. The group
that a field really belongs to is found by its name among all groups, so it is the one that the
manifest asks for unless a field names a group that is made up for another.

## Main definitions

* `Manifest.GroupsApart`: no field names a group that is made up.
* `Manifest.KeepsGroups`: the fields of a message belong to the groups that the manifest asks for.

## Main results

* `Manifest.keepsGroups_iff_groupsApart`: groups are kept exactly where they are apart.
-/

namespace MessageSchema

namespace Manifest

variable {manifest : Manifest} {set : DescriptorSet} {full : String} {spec : MessageSpec}
  {fieldSpec : FieldSpec} {field : Field} {message : Message} {group : Oneof}

/-- No field of a message names the group that is made up for an optional field of it. -/
def GroupsApart (spec : MessageSpec) : Prop :=
  ∀ optional ∈ spec.fields, ∀ member ∈ spec.fields, optional.label = some .optional →
    member.oneof ≠ some ("_" ++ optional.name)

instance (spec : MessageSpec) : Decidable (GroupsApart spec) :=
  inferInstanceAs (Decidable (∀ optional ∈ spec.fields, ∀ member ∈ spec.fields,
    optional.label = some .optional → member.oneof ≠ some ("_" ++ optional.name)))

/-- The fields of a message really belong to the groups that a manifest asks for: each to the group
that it names, an optional one to none, and two to the same one where they name the same. -/
structure KeepsGroups (spec : MessageSpec) (message : Message) : Prop where
  fields : List.Forall₂ (fun spec field =>
    (∀ name, message.realOneof? field = some ⟨name, false⟩ ↔ spec.oneof = some name) ∧
    (spec.label = some .optional → message.realOneof? field = none)) spec.fields message.fields
  shared : ∀ one ∈ spec.fields.zip message.fields, ∀ other ∈ spec.fields.zip message.fields,
    (∃ group, message.realOneof? one.2 = some group ∧ message.realOneof? other.2 = some group) ↔
      ∃ name, one.1.oneof = some name ∧ other.1.oneof = some name

/-! ### The groups of a message -/

theorem groupOf_optional (h : fieldSpec.label = some .optional) :
    groupOf fieldSpec = some ⟨"_" ++ fieldSpec.name, true⟩ := by
  rw [groupOf, if_pos h]

theorem groupOf_member {name : String} (hungrouped : fieldSpec.label = some .optional →
    fieldSpec.oneof = none) (h : fieldSpec.oneof = some name) :
    groupOf fieldSpec = some ⟨name, false⟩ := by
  have hlabel : fieldSpec.label ≠ some .optional := fun hlabel => by simp [hungrouped hlabel] at h
  rw [groupOf, if_neg hlabel, h, Option.map_some]

/-- Whether a group is made up tells how a field comes to it. -/
theorem groupOf_eq_some (h : groupOf fieldSpec = some group) :
    (group.synthetic = true ∧ fieldSpec.label = some .optional ∧ group.name = "_" ++ fieldSpec.name) ∨
      group.synthetic = false ∧ fieldSpec.oneof = some group.name := by
  rw [groupOf] at h
  split at h
  · obtain rfl := Option.some.inj h
    exact .inl ⟨rfl, ‹_›, rfl⟩
  · obtain ⟨name, hname, rfl⟩ := Option.map_eq_some_iff.mp h
    exact .inr ⟨rfl, hname⟩

/-- Some group of a name that is asked for is found. -/
theorem exists_find?_group (hfield : fieldSpec ∈ spec.fields) (hgroup : groupOf fieldSpec = some group) :
    ∃ found, (spec.fields.filterMap groupOf).find? (·.name = group.name) = some found ∧
      found.name = group.name ∧ ∃ other ∈ spec.fields, groupOf other = some found := by
  obtain ⟨found, hfound⟩ := Option.isSome_iff_exists.mp <|
    List.find?_isSome (p := (·.name = group.name)) |>.mpr
      ⟨group, List.mem_filterMap.mpr ⟨fieldSpec, hfield, hgroup⟩, by simp⟩
  exact ⟨found, hfound, by simpa using List.find?_some hfound,
    List.mem_filterMap.mp (List.mem_of_find?_eq_some hfound)⟩

/-- Where groups are apart, no field names a group that another gets made up. -/
theorem GroupsApart.synthetic_of_name_eq (h : GroupsApart spec) {other : FieldSpec} {found : Oneof}
    (hfield : fieldSpec ∈ spec.fields) (hgroup : groupOf fieldSpec = some group)
    (hother : other ∈ spec.fields) (hfound : groupOf other = some found)
    (hname : found.name = group.name) (hmade : group.synthetic = true) : found.synthetic = true := by
  rcases groupOf_eq_some hfound with ⟨hfoundMade, -⟩ | ⟨-, honeof⟩
  · exact hfoundMade
  · rcases groupOf_eq_some hgroup with ⟨-, hlabel, hgroupName⟩ | ⟨hnotMade, -⟩
    · rw [hname, hgroupName] at honeof
      exact absurd honeof (h fieldSpec hfield other hother hlabel)
    · rw [hmade] at hnotMade
      cases hnotMade

/-- Where groups are apart, a field finds the group that it asks for. -/
theorem GroupsApart.find?_group (h : GroupsApart spec) (hfield : fieldSpec ∈ spec.fields)
    (hgroup : groupOf fieldSpec = some group) :
    (spec.fields.filterMap groupOf).find? (·.name = group.name) = some group := by
  obtain ⟨found, hfound, hname, other, hother, hfoundOf⟩ := exists_find?_group hfield hgroup
  have hmade : found.synthetic = group.synthetic := Bool.eq_iff_iff.mpr
    ⟨h.synthetic_of_name_eq hother hfoundOf hfield hgroup hname.symm,
      h.synthetic_of_name_eq hfield hgroup hother hfoundOf hname⟩
  obtain ⟨name, synthetic⟩ := found
  obtain rfl : name = group.name := hname
  obtain rfl : synthetic = group.synthetic := hmade
  exact hfound

/-- The group that a field really belongs to is the first one of the name that it asks for, unless that
one is made up. -/
theorem realOneof?_eq (h : manifest.DescribesMessage full spec message)
    (hfield : field.oneof = (groupOf fieldSpec).map (·.name)) :
    message.realOneof? field = (groupOf fieldSpec).bind fun group =>
      ((spec.fields.filterMap groupOf).find? (·.name = group.name)).bind fun found =>
        if found.synthetic then none else some found := by
  rw [Message.realOneof?, hfield]
  cases groupOf fieldSpec with
  | none => rfl
  | some group =>
    show (message.oneofs.find? (·.name = group.name)).bind _ = _
    rw [h.groups]
    rfl

theorem synthetic_of_realOneof? (h : message.realOneof? field = some group) :
    group.synthetic = false := by
  rw [Message.realOneof?] at h
  obtain ⟨name, -, h⟩ := Option.bind_eq_some_iff.mp h
  obtain ⟨found, -, h⟩ := Option.bind_eq_some_iff.mp h
  split at h
  · cases h
  · rename_i hmade
    obtain rfl := Option.some.inj h
    exact Bool.eq_false_iff.mpr hmade

/-- Where groups are apart, a field really belongs to the group that it asks for unless that is made
up. -/
theorem GroupsApart.realOneof?_eq_some_iff (hapart : GroupsApart spec)
    (h : manifest.DescribesMessage full spec message) (hmem : fieldSpec ∈ spec.fields)
    (hfield : field.oneof = (groupOf fieldSpec).map (·.name)) :
    message.realOneof? field = some group ↔
      groupOf fieldSpec = some group ∧ group.synthetic = false := by
  rw [realOneof?_eq h hfield]
  cases hgroup : groupOf fieldSpec with
  | none => simp
  | some asked =>
    rw [Option.bind_some, hapart.find?_group hmem hgroup, Option.bind_some]
    split
    · rename_i hmade
      refine ⟨nofun, ?_⟩
      rintro ⟨heq, hreal⟩
      rw [Option.some.inj heq, hreal] at hmade
      cases hmade
    · rename_i hmade
      refine ⟨fun heq => ⟨heq, ?_⟩, And.left⟩
      rw [← Option.some.inj heq]
      exact Bool.eq_false_iff.mpr hmade

/-! ### Groups that are kept -/

/-- Fields that belong to the groups that they name share a group where they name the same. -/
theorem shared_iff {one other : Field} {oneSpec otherSpec : FieldSpec}
    (hone : ∀ name, message.realOneof? one = some ⟨name, false⟩ ↔ oneSpec.oneof = some name)
    (hother : ∀ name, message.realOneof? other = some ⟨name, false⟩ ↔ otherSpec.oneof = some name) :
    (∃ group, message.realOneof? one = some group ∧ message.realOneof? other = some group) ↔
      ∃ name, oneSpec.oneof = some name ∧ otherSpec.oneof = some name := by
  constructor
  · rintro ⟨⟨name, made⟩, honeGroup, hotherGroup⟩
    obtain rfl : made = false := synthetic_of_realOneof? honeGroup
    exact ⟨name, (hone name).mp honeGroup, (hother name).mp hotherGroup⟩
  · rintro ⟨name, honeName, hotherName⟩
    exact ⟨_, (hone name).mpr honeName, (hother name).mpr hotherName⟩

theorem GroupsApart.keepsGroups (hapart : GroupsApart spec)
    (h : manifest.DescribesMessage full spec message) : KeepsGroups spec message := by
  obtain ⟨hlength, hdescribes⟩ := List.forall₂_iff_zip.mp h.fields
  have hpair : ∀ {fieldSpec : FieldSpec} {field : Field},
      (fieldSpec, field) ∈ spec.fields.zip message.fields →
      (∀ name, message.realOneof? field = some ⟨name, false⟩ ↔ fieldSpec.oneof = some name) ∧
        (fieldSpec.label = some .optional → message.realOneof? field = none) := by
    intro fieldSpec field hmem
    have hfield := hdescribes hmem
    have hreal : ∀ group, message.realOneof? field = some group ↔
        groupOf fieldSpec = some group ∧ group.synthetic = false := fun _ =>
      hapart.realOneof?_eq_some_iff h (List.of_mem_zip hmem).1 hfield.oneof
    refine ⟨fun name => ⟨fun hname => ?_, fun hname => ?_⟩, fun hlabel => ?_⟩
    · obtain ⟨hgroup, -⟩ := (hreal _).mp hname
      rcases groupOf_eq_some hgroup with ⟨hmade, -⟩ | ⟨-, honeof⟩
      · cases hmade
      · exact honeof
    · exact (hreal _).mpr ⟨groupOf_member hfield.ungrouped hname, rfl⟩
    · refine Option.eq_none_iff_forall_ne_some.mpr fun group hgroup => ?_
      obtain ⟨hasked, hmade⟩ := (hreal group).mp hgroup
      rw [groupOf_optional hlabel, Option.some.injEq] at hasked
      rw [← hasked] at hmade
      cases hmade
  exact ⟨List.forall₂_iff_zip.mpr ⟨hlength, hpair⟩,
    fun one hone other hother => shared_iff (hpair hone).1 (hpair hother).1⟩

/-- A field that names a made up group belongs to the same group as the field that it is made up
for. -/
theorem KeepsGroups.groupsApart (hkeeps : KeepsGroups spec message)
    (h : manifest.DescribesMessage full spec message) : GroupsApart spec := by
  intro optional hoptional member hmember hlabel hname
  have hboth := h.fields.mp (fun _ _ hdescribes hkept => And.intro hdescribes hkept) hkeeps.fields
  obtain ⟨one, -, hone, -, hnone⟩ := exists_mem_of_forall₂ hboth hoptional
  obtain ⟨other, -, hother, hnamed, -⟩ := exists_mem_of_forall₂ hboth hmember
  have hsame : one.oneof = other.oneof := by
    rw [hone.oneof, hother.oneof, groupOf_optional hlabel, groupOf_member hother.ungrouped hname]
    rfl
  have hreal : message.realOneof? one = message.realOneof? other := by
    rw [Message.realOneof?, Message.realOneof?, hsame]
  rw [hnone hlabel, (hnamed _).mpr hname] at hreal
  cases hreal

/-- **Which groups are kept.** The fields of a message of an accepted manifest really belong to the
groups that the manifest asks for exactly when no field names the group made up for an optional one. -/
theorem keepsGroups_iff_groupsApart (h : manifest.descriptors = .ok set)
    (hspec : manifest.Declares full spec) : ∃ message ∈ set.messages, message.fullName = full ∧
      (KeepsGroups spec message ↔ GroupsApart spec) := by
  obtain ⟨message, hmessage, hdescribes⟩ := exists_descriptor h hspec
  exact ⟨message, hmessage, hdescribes.fullName, fun hkeeps => hkeeps.groupsApart hdescribes,
    fun hapart => hapart.keepsGroups hdescribes⟩

/-- A choice of two fields, next to an optional field. -/
def choice : MessageSpec where
  name := "Choice"
  fields := [{ name := "one", type := some "string", oneof := some "kind" },
    { name := "other", type := some "int32", oneof := some "kind" },
    { name := "note", type := some "string", label := some .optional }]

/-- An optional field, behind a field that names the group made up for it. -/
def clash : MessageSpec where
  name := "Clash"
  fields := [{ name := "member", type := some "string", oneof := some "_note" },
    { name := "note", type := some "string", label := some .optional }]

/-- The file of both. -/
def groupsFile : FileSpec where
  path := "groups.proto"
  package := "groups"
  messages := [choice, clash]

/-- The manifest of that file. -/
def groups : Manifest where
  files := [groupsFile]

theorem groups_declares_choice : groups.Declares "groups.Choice" choice :=
  .of_file (List.mem_singleton_self groupsFile) List.mem_cons_self (by decide)

theorem groups_declares_clash : groups.Declares "groups.Clash" clash :=
  .of_file (List.mem_singleton_self groupsFile)
    (List.mem_cons_of_mem _ (List.mem_singleton_self clash)) (by decide)

/-- The choice keeps its group. -/
theorem keepsGroups_iff_groupsApart_choice : ∃ set, groups.descriptors = .ok set ∧
    groups.Declares "groups.Choice" choice ∧ GroupsApart choice ∧
    ∃ message ∈ set.messages, message.fullName = "groups.Choice" ∧ KeepsGroups choice message := by
  obtain ⟨set, hset, -⟩ : ∃ set, groups.descriptors = .ok set ∧ true = true :=
    Except.exists_of_succeedsWith (by decide +kernel)
  obtain ⟨message, hmessage, hname, hkeeps⟩ := keepsGroups_iff_groupsApart hset groups_declares_choice
  have hapart : GroupsApart choice := by decide
  exact ⟨set, hset, groups_declares_choice, hapart, message, hmessage, hname, hkeeps.mpr hapart⟩

/-- **Groups may be mixed up.** It is not true that the fields of every message really belong to the
groups that the manifest asks for. -/
theorem not_keepsGroups :
    ¬ ∀ (manifest : Manifest) (set : DescriptorSet) (full : String) (spec : MessageSpec),
      manifest.descriptors = .ok set → manifest.Declares full spec →
      ∃ message ∈ set.messages, message.fullName = full ∧ KeepsGroups spec message := by
  intro h
  obtain ⟨set, hset, -⟩ : ∃ set, groups.descriptors = .ok set ∧ true = true :=
    Except.exists_of_succeedsWith (by decide +kernel)
  obtain ⟨message, hmessage, hname, hkeeps⟩ := h groups set _ clash hset groups_declares_clash
  obtain ⟨other, hother, hdescribes⟩ := exists_descriptor hset groups_declares_clash
  obtain rfl := (declaredOnce hset).eq_of_fullName_eq hother hmessage
    (hdescribes.fullName.trans hname.symm)
  have hclash : ¬ GroupsApart clash := by decide
  exact hclash (hkeeps.groupsApart hdescribes)

end Manifest

end MessageSchema
