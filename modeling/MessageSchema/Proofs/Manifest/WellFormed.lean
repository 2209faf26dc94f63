import MessageSchema.Proofs.Manifest.Messages

/-!
# Accepted manifests are well formed

The descriptors of an accepted manifest are consistent: names are different, a name in a field leads
to the innermost declaration of it, and each map field has its entry in its own message.

## Main definitions

* `Manifest.Finds`: looking a declared name up in a set gives the declared type.
* `Manifest.Refers`: a field refers to what a text means.
* `Manifest.WellFormed`: a set of descriptors is consistent with a manifest.

## Main results

* `Manifest.finds_of_declaresType`: every declared type is found.
* `Manifest.wellFormed_of_descriptors`: the descriptors of an accepted manifest are consistent with it.
-/

namespace MessageSchema

namespace Manifest

variable {manifest : Manifest} {set : DescriptorSet} {full : String} {kind : Declared}
  {message : Message} {spec : MessageSpec}

/-! ### Lookup of declared types -/

/-- Looking a full name up in a set gives the descriptor of what a manifest declares under it. -/
inductive Finds (manifest : Manifest) (set : DescriptorSet) : String → Declared → Prop
  | message {name spec message} : manifest.Declares name spec → set.message? name = some message →
      manifest.DescribesMessage name spec message → Finds manifest set name .message
  | entry {owner spec field map entry} : manifest.Declares owner spec → field ∈ spec.fields →
      field.map = some map →
      set.message? (Text.qualified owner (entryName field.name)) = some entry →
      manifest.IsEntry owner field map entry →
      Finds manifest set (Text.qualified owner (entryName field.name)) .message
  | enumOfMessage {owner spec e} : manifest.Declares owner spec → e ∈ spec.enums →
      set.enumeration? (Text.qualified owner e.name) = some (enumOf owner e) →
      Finds manifest set (Text.qualified owner e.name) .enum
  | enumOfFile {file e} : file ∈ manifest.files → e ∈ file.enums →
      set.enumeration? (Text.qualified file.package e.name) = some (enumOf file.package e) →
      Finds manifest set (Text.qualified file.package e.name) .enum

theorem undotted (h : manifest.descriptors = .ok set) (hdot : manifest.Undotted) : set.Undotted :=
  fun message hmessage => hdot message.fullName .message <| (mem_types h).mp <|
    List.mem_append_left _ (List.mem_map_of_mem hmessage)

theorem message?_eq_some (h : manifest.descriptors = .ok set) (hdot : manifest.Undotted)
    (hmessage : message ∈ set.messages) : set.message? message.fullName = some message :=
  (declaredOnce h).message?_fullName (undotted h hdot) hmessage

/-- Where keys are all different, each value is found by its key. -/
theorem find?_eq_some_of_nodup {α : Type} {key : α → String} {values : List α}
    (hnodup : (values.map key).Nodup) {value : α} (hvalue : value ∈ values) :
    values.find? (key · = key value) = some value := by
  obtain ⟨found, hfound⟩ : ∃ found, values.find? (key · = key value) = some found :=
    Option.isSome_iff_exists.mp (List.find?_isSome.mpr ⟨value, hvalue, by simp⟩)
  have hkey : key found = key value := by simpa using List.find?_some hfound
  rw [hfound, List.inj_on_of_nodup_map hnodup (List.mem_of_find?_eq_some hfound) hvalue hkey]

theorem enumeration?_eq_some (h : manifest.descriptors = .ok set) (hdot : manifest.Undotted)
    {e : EnumType} (he : e ∈ set.enumerations) : set.enumeration? e.fullName = some e := by
  have hdeclared : manifest.DeclaresType e.fullName .enum :=
    (mem_types h).mp (List.mem_append_right _ (List.mem_map_of_mem he))
  have hbare : Text.withoutDot e.fullName = e.fullName :=
    Text.withoutDot_of_no_dot (hdot _ _ hdeclared)
  have hnodup : (set.enumerations.map (·.fullName)).Nodup := by
    have := nodup_types h
    rw [DescriptorSet.types, List.map_append, List.map_map, List.map_map] at this
    exact (List.nodup_append.mp this).2.1
  rw [DescriptorSet.enumeration?, hbare]
  exact find?_eq_some_of_nodup hnodup he

theorem mem_enumerations_of_message {e : EnumType} (hmessage : message ∈ set.messages)
    (he : e ∈ message.enums) : e ∈ set.enumerations := by
  obtain ⟨file, hfile, hmessage⟩ := DescriptorSet.mem_messages.mp hmessage
  exact set.enumerations_perm.mem_iff.mpr <| List.mem_flatMap.mpr
    ⟨file, hfile, List.mem_append_left _ (List.mem_flatMap.mpr ⟨message, hmessage, he⟩)⟩

theorem mem_enumerations_of_file {file : File} {e : EnumType} (hfile : file ∈ set.files)
    (he : e ∈ file.enums) : e ∈ set.enumerations :=
  set.enumerations_perm.mem_iff.mpr <|
    List.mem_flatMap.mpr ⟨file, hfile, List.mem_append_right _ he⟩

/-- Every declared type is found under its full name. -/
theorem finds_of_declaresType (h : manifest.descriptors = .ok set) (hdot : manifest.Undotted)
    (hdeclared : manifest.DeclaresType full kind) : manifest.Finds set full kind := by
  cases hdeclared with
  | message hspec =>
    obtain ⟨message, hmessage, hdescribes⟩ := exists_descriptor h hspec
    have hfound := message?_eq_some h hdot hmessage
    rw [hdescribes.fullName] at hfound
    exact .message hspec hfound hdescribes
  | entry hspec hfield hmap =>
    obtain ⟨owner, howner, hdescribes⟩ := exists_descriptor h hspec
    obtain ⟨field, -, hfieldOf⟩ := exists_mem_of_forall₂ hdescribes.fields hfield
    rcases hfieldOf.typed with ⟨_, -, hnone, -⟩ | ⟨map, entry, -, hsome, -, -, hentry, his⟩
    · rw [hnone] at hmap
      cases hmap
    · have hfound := message?_eq_some h hdot (DescriptorSet.mem_messages_of_nested howner hentry)
      rw [his.fullName] at hfound
      exact .entry hspec hfield hsome hfound his
  | enumOfMessage hspec he =>
    obtain ⟨owner, howner, hdescribes⟩ := exists_descriptor h hspec
    refine .enumOfMessage hspec he (enumeration?_eq_some h hdot (e := enumOf _ _) ?_)
    exact mem_enumerations_of_message howner (hdescribes.enums ▸ List.mem_map_of_mem he)
  | enumOfFile hfile he =>
    obtain ⟨names, -, hfiles⟩ := descriptors_eq_ok h
    obtain ⟨file, hmem, hdescribes⟩ := exists_mem_of_forall₂ hfiles hfile
    refine .enumOfFile hfile he (enumeration?_eq_some h hdot (e := enumOf _ _) ?_)
    exact mem_enumerations_of_file hmem (hdescribes.enums ▸ List.mem_map_of_mem he)

/-! ### Fields -/

/-- A field refers to what a text means in a scope, and that type is found under the name that the
field carries. -/
def Refers (manifest : Manifest) (set : DescriptorSet) (scope text : String) (field : Field) : Prop :=
  ∃ full declared, manifest.Means scope text full declared ∧ field.kind = declared.kind ∧
    field.typeName = some full ∧ manifest.Finds set full declared

/-- The entry of a map field of a message is nested in that message and found under the name that the
field carries. Its field with the number of keys is the key, of the asked kind, and the one with the
number of values is the value, of the asked type. -/
def Pairs (manifest : Manifest) (set : DescriptorSet) (message : Message) (map : MapSpec)
    (field : Field) : Prop :=
  ∃ entry ∈ message.nested, entry.mapEntry = true ∧ set.message? field.target = some entry ∧
    ∃ key value, entry.fieldByNumber? Message.keyNumber = some key ∧
      entry.fieldByNumber? Message.valueNumber = some value ∧
      scalarKind? map.key = some key.kind ∧
      (∀ kind, scalarKind? map.value = some kind → value.kind = kind) ∧
      (scalarKind? map.value = none → manifest.Refers set message.fullName map.value value)

/-- A set of descriptors is consistent with a manifest. -/
structure WellFormed (manifest : Manifest) (set : DescriptorSet) : Prop where
  /-- All full names of messages, entries of map fields among them, and of enums are different. -/
  distinct : (set.messages.map (·.fullName) ++ set.enumerations.map (·.fullName)).Nodup
  /-- Every declared message is found, and its fields are in place: one whose type is no keyword
  refers to what the type means, one with a map has its entry. -/
  fields : ∀ full spec, manifest.Declares full spec → ∃ message,
    set.message? full = some message ∧ message.fullName = full ∧
    List.Forall₂ (fun spec field =>
      (∀ text, spec.type = some text → scalarKind? text = none →
        manifest.Refers set full text field) ∧
      ∀ map, spec.map = some map → field.isMap = true ∧ manifest.Pairs set message map field)
      spec.fields message.fields
  /-- Every map field of any message of the set has its entry. -/
  maps : ∀ message ∈ set.messages, ∀ field ∈ message.fields, field.isMap = true →
    ∃ map, manifest.Pairs set message map field

theorem refers_of_typedBy (h : manifest.descriptors = .ok set) (hdot : manifest.Undotted)
    {scope text : String} {field : Field}
    (htyped : manifest.TypedBy scope text field.kind field.typeName)
    (hscalar : scalarKind? text = none) : manifest.Refers set scope text field := by
  obtain ⟨full, declared, hmeans, hkind, hname⟩ := htyped.exists_means hscalar
  exact ⟨full, declared, hmeans, hkind, hname, finds_of_declaresType h hdot hmeans.declaresType⟩

theorem pairs_of_isEntry (h : manifest.descriptors = .ok set) (hdot : manifest.Undotted)
    {field : Field} {fieldSpec : FieldSpec} {map : MapSpec} {entry : Message}
    (hmessage : message ∈ set.messages) (hentry : entry ∈ message.nested)
    (hname : field.typeName = some entry.fullName)
    (his : manifest.IsEntry message.fullName fieldSpec map entry) :
    manifest.Pairs set message map field := by
  obtain ⟨key, value, hfields, hkey, hvalue, hscalar, -, -, -, htyped⟩ := his.fields
  have htarget : field.target = entry.fullName := by rw [Field.target, hname, Option.getD_some]
  have hfound := message?_eq_some h hdot (DescriptorSet.mem_messages_of_nested hmessage hentry)
  refine ⟨entry, hentry, his.mapEntry, htarget ▸ hfound, key, value, ?_, ?_, hscalar, ?_,
    refers_of_typedBy h hdot htyped⟩
  · simp [Message.fieldByNumber?, hfields, hkey]
  · simp [Message.fieldByNumber?, hfields, hkey, hvalue, Message.keyNumber, Message.valueNumber]
  · exact fun kind hkind => (htyped.eq_scalar hkind).1

theorem pairs_of_describes (h : manifest.descriptors = .ok set) (hdot : manifest.Undotted)
    {field : Field} {fieldSpec : FieldSpec} (hmessage : message ∈ set.messages)
    (hfield : manifest.Describes message.fullName message.nested fieldSpec field)
    (hmap : field.isMap = true) :
    ∃ map, fieldSpec.map = some map ∧ manifest.Pairs set message map field := by
  rcases hfield.typed with ⟨_, -, -, hsingle, -⟩ | ⟨map, entry, -, hspec, -, hname, hentry, his⟩
  · rw [hsingle] at hmap
    cases hmap
  · exact ⟨map, hspec, pairs_of_isEntry h hdot hmessage hentry hname his⟩

/-- **Accepted manifests are well formed.** If a manifest has descriptors, and no declared name begins
with a dot, then the descriptors are consistent with it. -/
theorem wellFormed_of_descriptors (h : manifest.descriptors = .ok set) (hdot : manifest.Undotted) :
    manifest.WellFormed set where
  distinct := by
    have hnodup := nodup_types h
    rwa [DescriptorSet.types, List.map_append, List.map_map, List.map_map] at hnodup
  fields full spec hspec := by
    obtain ⟨message, hmessage, hdescribes⟩ := exists_descriptor h hspec
    obtain rfl := hdescribes.fullName
    refine ⟨message, message?_eq_some h hdot hmessage, rfl, hdescribes.fields.imp ?_⟩
    intro fieldSpec field hfield
    refine ⟨fun text htext hscalar => ?_, fun map hmap => ?_⟩
    · rcases hfield.typed with ⟨other, hother, -, -, htyped⟩ | ⟨_, _, hnone, -⟩
      · obtain rfl := Option.some.inj (htext.symm.trans hother)
        exact refers_of_typedBy h hdot htyped hscalar
      · rw [htext] at hnone
        cases hnone
    · have hfieldMap : field.isMap = true := by
        rcases hfield.typed with ⟨_, -, hnone, -⟩ | ⟨_, _, -, -, hfieldMap, -⟩
        · rw [hmap] at hnone
          cases hnone
        · exact hfieldMap
      obtain ⟨other, hother, hpairs⟩ := pairs_of_describes h hdot hmessage hfield hfieldMap
      exact ⟨hfieldMap, Option.some.inj (hmap.symm.trans hother) ▸ hpairs⟩
  maps message hmessage field hfield hmap := by
    obtain ⟨full, spec, -, hdescribes | ⟨fieldSpec, map, hentry⟩⟩ := isDescriptor_of_mem h hmessage
    · obtain rfl := hdescribes.fullName
      obtain ⟨fieldSpec, -, hdescribes⟩ := exists_mem_of_forall₂ hdescribes.fields.flip hfield
      obtain ⟨map, -, hpairs⟩ := pairs_of_describes h hdot hmessage hdescribes hmap
      exact ⟨map, hpairs⟩
    · -- The fields of an entry are its key and its value, and neither is a map.
      obtain ⟨key, value, hfields, -, -, -, -, hkey, hvalue, -⟩ := hentry.fields
      rw [hfields, List.mem_cons, List.mem_singleton] at hfield
      rcases hfield with rfl | rfl
      · rw [hkey] at hmap
        cases hmap
      · rw [hvalue] at hmap
        cases hmap

/-- Places, of which each may have a place of its own inside, and trips in a package below. -/
def atlas : Manifest where
  files := [
    { path := "geo.proto", package := "geo"
      messages := [
        { name := "Place"
          fields := [{ name := "kind", type := some "Kind" },
            { name := "parts", map := some ⟨"string", "Place"⟩ }]
          messages := [{ name := "Place", fields := [{ name := "around", type := some ".geo.Place" }] }]
          enums := [{ name := "Kind", values := [⟨"TOWN", 0⟩] }] }] },
    { path := "trip.proto", package := "geo.trip"
      messages := [{ name := "Trip", fields := [{ name := "stop", type := some "Place" }] }] }]

/-- The type names of the fields of a message. -/
def typeNamesOf (set : DescriptorSet) (name : String) : Option (List (Option String)) :=
  (set.message? name).map (·.fields.map (·.typeName))

/-- The values of the map are the places inside, whose name hides that of the place around. Trips stop
at the outer ones. -/
theorem wellFormed_of_descriptors_atlas : ∃ set, atlas.descriptors = .ok set ∧ atlas.Undotted ∧
    atlas.WellFormed set ∧
    typeNamesOf set "geo.Place.PartsEntry" = some [none, some "geo.Place.Place"] ∧
    typeNamesOf set "geo.trip.Trip" = some [some "geo.Place"] := by
  obtain ⟨set, hset, hnames⟩ : ∃ set, atlas.descriptors = .ok set ∧ decide (
      typeNamesOf set "geo.Place.PartsEntry" = some [none, some "geo.Place.Place"] ∧
      typeNamesOf set "geo.trip.Trip" = some [some "geo.Place"]) = true :=
    Except.exists_of_succeedsWith (by decide +kernel)
  have hdot : atlas.Undotted := by decide +kernel
  exact ⟨set, hset, hdot, wellFormed_of_descriptors hset hdot, of_decide_eq_true hnames⟩

end Manifest

end MessageSchema
