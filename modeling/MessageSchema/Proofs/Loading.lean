import MessageSchema.Input.Load
import MessageSchema.Proofs.Manifest.Messages
import MessageSchema.Proofs.Protojson.Conversion
import MessageSchema.Proofs.Synthesis.OfSelection

/-!
# What a loaded set looks like

Both formats declare a map field by giving it an entry, so a map field of a set that has been loaded
always has the kind of a message.

## Main results

* `Input.mapsHoldMessages_of_read`: the map fields of a loaded set hold messages.
-/

namespace MessageSchema

/-- Every map field of a message has the kind of a message. -/
def Message.MapsHoldMessages (message : Message) : Prop :=
  ∀ field ∈ message.fields, field.isMap = true → field.kind.isMessage = true

/-- The map fields of a set that a manifest describes hold messages. -/
theorem Manifest.mapsHoldMessages_of_mem {manifest : Manifest} {set : DescriptorSet}
    {message : Message} (h : manifest.descriptors = .ok set) (hmessage : message ∈ set.messages) :
    message.MapsHoldMessages := by
  intro field hfield hmap
  obtain ⟨names, hnames, path, scope, spec, -, hof | ⟨_, _, hentry⟩⟩ := isMade_of_mem h hmessage
  · obtain ⟨own, entries, -, hfields, -⟩ := messageOf_eq_ok hof
    rw [kind_of_fieldsOf hnames hfields field hfield hmap]
    rfl
  · -- neither the key nor the value of an entry is a map
    obtain ⟨key, value, hfields, -, -, -, -, hkey, hvalue, -⟩ := hentry.fields
    rw [hfields] at hfield
    rcases List.mem_pair.mp hfield with rfl | rfl
    · rw [hkey] at hmap
      cases hmap
    · rw [hvalue] at hmap
      cases hmap

namespace Protojson

theorem MessageAgrees.mapsHoldMessages {source : RawFile} {address : List ℕ} {names : List String}
    {raw : RawMessage} {message : Message} (h : MessageAgrees source address names raw message) :
    message.MapsHoldMessages := by
  intro field hfield hmap
  obtain ⟨_, -, hagrees⟩ := exists_mem_of_forall₂ h.fields.flip hfield
  obtain ⟨-, hkind, -⟩ := hagrees.map.mp (of_decide_eq_true hmap)
  rw [hkind]
  rfl

/-- The map fields of the files of a document hold messages. -/
theorem mapsHoldMessages_filesOf {sources : List RawFile} {files : List File}
    (h : filesOf sources = .ok files) :
    ∀ file ∈ files, ∀ message ∈ Message.allWithNested file.messages, message.MapsHoldMessages := by
  intro file hfile message hmessage
  obtain ⟨_, -, hagrees⟩ := exists_mem_of_forall₂ (fileAgrees_of_filesOf h).flip hfile
  obtain ⟨_, _, _, -, -, hmessage⟩ := hagrees.origin message hmessage
  exact hmessage.mapsHoldMessages

end Protojson

namespace Input

/-- The map fields of a set that has been loaded hold messages. -/
theorem mapsHoldMessages_of_read {path : Path} {text : String} {format : Format}
    {set : DescriptorSet} (h : read path text format = .ok set) : set.MapsHoldMessages := by
  intro owner howner
  cases format with
  | manifest =>
    obtain ⟨manifest, -, h⟩ := Except.bind_eq_ok.mp (Except.mapError_eq_ok.mp h)
    exact Manifest.mapsHoldMessages_of_mem h howner
  | descriptorSet =>
    obtain ⟨raw, -, -, hfiles⟩ := Protojson.load_eq_ok_iff.mp (Except.mapError_eq_ok.mp h)
    obtain ⟨file, hfile, howner⟩ := DescriptorSet.mem_messages.mp howner
    exact Protojson.mapsHoldMessages_filesOf hfiles file hfile owner howner

end Input

end MessageSchema
