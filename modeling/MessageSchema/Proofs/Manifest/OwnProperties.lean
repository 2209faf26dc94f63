import MessageSchema.Proofs.Manifest.Messages
import MessageSchema.Proofs.Overlay.Ignored

/-!
# Properties of their own

The properties of a message are found by name, and of several fields with one name the last counts. A
manifest may declare each type once, and with it each map field of a message, whose entry is a type;
nothing keeps two other fields of a message from having the same name. Then a field is lost, and the
name may be required twice.

## Main definitions

* `Shape.KeepsFields`: each field that is kept has a property of its own.

## Main results

* `Shape.keepsFields_iff`: fields are kept exactly where their names are different.
* `Manifest.Declares.nodup_maps`: an accepted manifest does not repeat a map field.
* `Manifest.keepsFields_iff_nodup`: both, for the messages of an accepted manifest.
* `Manifest.not_keepsFields`: an accepted manifest that repeats a field.
-/

namespace MessageSchema

variable {pool : Pool} {selected : List String} {message : Message} {shape : Schema}

namespace Shape

/-- Nothing that a message declares is lost in its schema: each field that is kept has a property of
its own, which is the node of that field, and no name is required twice. -/
structure KeepsFields (pool : Pool) (selected : List String) (message : Message)
    (shape : Schema) : Prop where
  nodes : ∀ field ∈ message.kept.fields, ∃ node,
    property? pool selected message field = .ok (some node) ∧
      Dictionary.get? field.name shape.properties = some node
  count : shape.properties.length = message.kept.fields.length
  required : shape.required.Nodup

/-- The entries have properties of their own exactly where the names of their fields are different. -/
theorem length_properties_iff (message : Message) (entries : List (Field × Schema)) :
    (ofEntries message entries).properties.length = entries.length ↔
      ((entries.map (·.1)).map (·.name)).Nodup := by
  rw [← keys_entries, ← Dictionary.length_ofList_eq_iff, List.length_map]
  exact Iff.rfl

/-- Fields are kept exactly where their names are different. -/
theorem keepsFields_iff (h : ofMessage pool selected message = .ok shape) :
    KeepsFields pool selected message shape ↔ (message.kept.fields.map (·.name)).Nodup := by
  obtain ⟨entries, hentries, hfields, rfl⟩ := exists_entries h
  have hlength : entries.length = message.kept.fields.length := by rw [← hfields, List.length_map]
  constructor
  · intro hkeeps
    rw [← hfields, ← length_properties_iff message, hlength]
    exact hkeeps.count
  · intro hnodup
    refine ⟨fun field hfield => ?_, ?_, ?_⟩
    · rw [← hfields] at hfield
      obtain ⟨e, he, rfl⟩ := List.mem_map.mp hfield
      exact ⟨e.2, (mem_of_entriesOf hentries he).2, get?_entries (hfields ▸ hnodup) he⟩
    · rw [← hlength, length_properties_iff, hfields]
      exact hnodup
    · simp only [ofEntries, hfields]
      exact hnodup.sublist (List.filter_sublist.map _)

end Shape

namespace Manifest

variable {manifest : Manifest} {set : DescriptorSet} {names : Dictionary Declared} {full : String}
  {spec : MessageSpec}

/-- An accepted manifest does not repeat a map field: their entries would have the same name. -/
theorem Declares.nodup_maps (h : manifest.Declares full spec)
    (hnames : manifest.declared = .ok names) :
    ((spec.fields.filter (·.map.isSome)).map (·.name)).Nodup := by
  obtain ⟨scope, rfl, hsub⟩ := h.sublist_declarations
  have hentries : ((spec.fields.filter (·.map.isSome)).map fun field =>
      (Text.qualified (Text.qualified scope spec.name) (entryName field.name),
        Declared.message)).Sublist (declaredByMessage scope spec) := by
    rw [declaredByMessage_eq]
    exact (List.sublist_append_right _ _).trans (List.sublist_append_left _ _)
  have hnodup := (nodup_declarations hnames).sublist ((hentries.trans hsub).map (·.1))
  rw [List.map_map] at hnodup
  refine List.Nodup.of_map
    (fun name => Text.qualified (Text.qualified scope spec.name) (entryName name)) ?_
  rwa [List.map_map]

/-- The map fields of a message are those that the manifest declares. -/
theorem maps_of_describes {entries : List Message} {specs : List FieldSpec} {fields : List Field}
    (h : List.Forall₂ (manifest.Describes full entries) specs fields) :
    (fields.filter (·.isMap)).map (·.name) = (specs.filter (·.map.isSome)).map (·.name) := by
  induction h with
  | nil => rfl
  | @cons fieldSpec field _ _ hfield _ ih =>
    have hmap : field.isMap = fieldSpec.map.isSome := by
      rcases hfield.typed with ⟨_, -, hmap, hsingle, -⟩ | ⟨_, _, -, hmap, hfieldMap, -⟩
      · rw [hmap, hsingle, Option.isSome_none]
      · rw [hmap, hfieldMap, Option.isSome_some]
    rw [List.filter_cons, List.filter_cons, hmap]
    split
    · rw [List.map_cons, List.map_cons, ih, hfield.name]
    · exact ih

/-- The map fields of each message have different names. -/
theorem nodup_isMap (h : manifest.descriptors = .ok set) (hmessage : message ∈ set.messages) :
    ((message.fields.filter (·.isMap)).map (·.name)).Nodup := by
  obtain ⟨names, hnames, -⟩ := descriptors_eq_ok h
  obtain ⟨full, spec, hspec, hdescribes | ⟨fieldSpec, map, hentry⟩⟩ := isDescriptor_of_mem h hmessage
  · rw [maps_of_describes hdescribes.fields]
    exact hspec.nodup_maps hnames
  · -- The fields of an entry are its key and its value, and neither is a map.
    obtain ⟨key, value, hfields, -, -, -, -, hkey, hvalue, -⟩ := hentry.fields
    simp [hfields, hkey, hvalue]

/-- **Which fields are lost.** In a message of an accepted manifest map fields have different names,
and if its schema is built, then each field that is kept has a property of its own and no name is
required twice exactly when all fields that are kept have different names. -/
theorem keepsFields_iff_nodup (h : manifest.descriptors = .ok set) (hmessage : message ∈ set.messages)
    (hshape : Shape.ofMessage pool selected message = .ok shape) :
    ((message.fields.filter (·.isMap)).map (·.name)).Nodup ∧
      (Shape.KeepsFields pool selected message shape ↔
        (message.kept.fields.map (·.name)).Nodup) :=
  ⟨nodup_isMap h hmessage, Shape.keepsFields_iff hshape⟩

/-- A book whose former note is left out, so that the other one has the name to itself. -/
def library : Manifest where
  files := [{
    path := "book.proto"
    package := "lib"
    messages := [{
      name := "Book"
      fields := [
        { name := "note", type := some "string"
          options := some (.object [("ignore", .boolean true)]) },
        { name := "note", type := some "Note", label := some .repeated },
        { name := "lent", map := some ⟨"string", "int64"⟩ }]
      messages := [{ name := "Note", fields := [{ name := "text", type := some "string" }] }] }] }]

/-- The book keeps its fields. -/
theorem keepsFields_iff_nodup_library : ∃ set message shape,
    library.descriptors = .ok set ∧ message ∈ set.messages ∧ message.fullName = "lib.Book" ∧
    Shape.ofMessage set.pool ["lib.Book.Note"] message = .ok shape ∧
    (message.kept.fields.map (·.name)).Nodup ∧
    Shape.KeepsFields set.pool ["lib.Book.Note"] message shape := by
  obtain ⟨set, hset, hfound⟩ : ∃ set, library.descriptors = .ok set ∧
      (set.messages.any fun message => message.fullName = "lib.Book" ∧
        (message.kept.fields.map (·.name)).Nodup ∧
        Except.succeedsWith (fun _ => true)
          (Shape.ofMessage set.pool ["lib.Book.Note"] message) = true) = true :=
    Except.exists_of_succeedsWith (by decide +kernel)
  obtain ⟨message, hmessage, hbook⟩ := List.any_eq_true.mp hfound
  obtain ⟨hname, hnodup, hshape⟩ := of_decide_eq_true hbook
  obtain ⟨shape, hshape, -⟩ := Except.exists_of_succeedsWith hshape
  exact ⟨set, message, shape, hset, hmessage, hname, hshape, hnodup,
    (keepsFields_iff_nodup hset hmessage hshape).2.mpr hnodup⟩

/-- A message that declares two fields of one name. -/
def twins : Manifest where
  files := [{
    path := "a.proto"
    messages := [{
      name := "M"
      fields := [{ name := "x", type := some "string" }, { name := "x", type := some "int32" }] }] }]

/-- **Fields may be lost.** A manifest that repeats a field is accepted, and one property and two
requirements come of it. -/
theorem not_keepsFields : ¬ ∀ (manifest : Manifest) (set : DescriptorSet) (selected : List String)
    (message : Message) (shape : Schema), manifest.descriptors = .ok set → message ∈ set.messages →
    Shape.ofMessage set.pool selected message = .ok shape →
    Shape.KeepsFields set.pool selected message shape := by
  intro hall
  obtain ⟨set, hset, hfound⟩ : ∃ set, twins.descriptors = .ok set ∧
      (set.messages.any fun message => ¬ (message.kept.fields.map (·.name)).Nodup ∧
        Except.succeedsWith (fun _ => true) (Shape.ofMessage set.pool [] message) = true) = true :=
    Except.exists_of_succeedsWith (by decide +kernel)
  obtain ⟨message, hmessage, htwins⟩ := List.any_eq_true.mp hfound
  obtain ⟨hrepeated, hshape⟩ := of_decide_eq_true htwins
  obtain ⟨shape, hshape, -⟩ := Except.exists_of_succeedsWith hshape
  exact hrepeated ((Shape.keepsFields_iff hshape).mp (hall twins set [] message shape hset hmessage
    hshape))

end Manifest

end MessageSchema
