import MessageSchema.Proofs.Declarations
import MessageSchema.Proofs.Manifest.Fields
import Mathlib.Data.List.Perm.Basic

/-!
# Messages of a manifest and their descriptors

The descriptors of an accepted manifest are those of the declared messages and of the entries of
their map fields. Declaring names and making descriptors are separate recursions; both give the same
names, so the names of the descriptors are all different.

## Main definitions

* `Manifest.DescribesMessage`: a descriptor of a message.
* `DescriptorSet.types`: the names of messages and enums, with what they name.

## Main results

* `Manifest.types_perm`: the types of the descriptors are the declared ones.
* `Manifest.nodup_types`: their names are all different.
* `Manifest.exists_descriptor`: each declared message has its descriptor.
* `Manifest.isMade_of_mem`: each descriptor is made of a declared message, or of a map field of one.
* `Manifest.isDescriptor_of_mem`: each descriptor is that of a declared message, or an entry of one.
-/

namespace MessageSchema

/-- The enums of a set; the first of a name is the one that counts. -/
def DescriptorSet.enumerations (set : DescriptorSet) : List EnumType :=
  set.enumIndex.map (·.1)

theorem exists_mem_of_forall₂ {α β : Type} {r : α → β → Prop} {as : List α} {bs : List β}
    (h : List.Forall₂ r as bs) {a : α} (ha : a ∈ as) : ∃ b ∈ bs, r a b := by
  induction h with
  | nil => cases ha
  | cons hr _ ih =>
    rcases List.mem_cons.mp ha with rfl | ha
    · exact ⟨_, List.mem_cons_self, hr⟩
    · obtain ⟨b, hb, hr⟩ := ih ha
      exact ⟨b, List.mem_cons_of_mem _ hb, hr⟩

namespace Message

theorem allWithNested_append (roots others : List Message) :
    allWithNested (roots ++ others) = allWithNested roots ++ allWithNested others := by
  induction roots with
  | nil => rfl
  | cons root rest ih => rw [List.cons_append, allWithNested, allWithNested, ih, List.append_assoc]

theorem allWithNested_of_flat {roots : List Message} (h : ∀ root ∈ roots, root.nested = []) :
    allWithNested roots = roots := by
  induction roots with
  | nil => rfl
  | cons root rest ih =>
    obtain ⟨hroot, hrest⟩ := List.forall_mem_cons.mp h
    rw [allWithNested, withNested_eq, hroot, ih hrest]
    rfl

end Message

namespace Manifest

variable {manifest : Manifest} {names : Dictionary Declared} {path scope full : String}
  {set : DescriptorSet} {message : Message}

/-- A message is the descriptor of a message that a manifest declares under a full name. -/
structure DescribesMessage (manifest : Manifest) (full : String) (spec : MessageSpec)
    (message : Message) : Prop where
  fullName : message.fullName = full
  mapEntry : message.mapEntry = false
  enums : message.enums = spec.enums.map (enumOf full)
  fields : List.Forall₂ (manifest.Describes full message.nested) spec.fields message.fields
  groups : ∀ name, message.oneofs.find? (·.name = name) =
    (spec.fields.filterMap groupOf).find? (·.name = name)

/-! ### One message -/

/-- A descriptor of a message, taken apart. -/
theorem messageOf_eq_ok {spec : MessageSpec} (h : messageOf names path scope spec = .ok message) :
    ∃ own entries, messagesOf names path (Text.qualified scope spec.name) spec.messages = .ok own ∧
      fieldsOf ⟨names, path, Text.qualified scope spec.name⟩ 0 spec.fields [] =
        .ok (message.fields, entries, message.oneofs) ∧
      message.fullName = Text.qualified scope spec.name ∧ message.nested = own ++ entries ∧
      message.mapEntry = false ∧
      message.enums = spec.enums.map (enumOf (Text.qualified scope spec.name)) := by
  obtain ⟨name, comment, options, fields, messages, enums⟩ := spec
  obtain ⟨own, hown, h⟩ := Except.bind_eq_ok.mp h
  obtain ⟨⟨made, entries, oneofs⟩, hfields, h⟩ := Except.bind_eq_ok.mp h
  obtain rfl := Except.pure_eq_ok.mp h
  exact ⟨own, entries, hown, hfields, rfl, rfl, rfl, rfl⟩

theorem describesMessage_of_messageOf (hnames : manifest.declared = .ok names) {spec : MessageSpec}
    (h : messageOf names path scope spec = .ok message) :
    manifest.DescribesMessage (Text.qualified scope spec.name) spec message := by
  obtain ⟨own, entries, -, hfields, hname, hnested, hentry, henums⟩ := messageOf_eq_ok h
  refine ⟨hname, hentry, henums, ?_, fun name => ?_⟩
  · refine (describes_of_fieldsOf hnames hfields).imp fun _ _ hfield => hfield.mono ?_
    rw [hnested]
    exact List.subset_append_right _ _
  · exact (find?_groups_of_fieldsOf hnames hfields name).trans (by rw [List.nil_append])

theorem mem_of_messagesOf {specs : List MessageSpec} {messages : List Message}
    (h : messagesOf names path scope specs = .ok messages) :
    (∀ spec ∈ specs, ∃ message ∈ messages, messageOf names path scope spec = .ok message) ∧
      ∀ message ∈ messages, ∃ spec ∈ specs, messageOf names path scope spec = .ok message := by
  induction specs generalizing messages with
  | nil =>
    cases h
    simp
  | cons spec rest ih =>
    obtain ⟨first, hfirst, h⟩ := Except.bind_eq_ok.mp h
    obtain ⟨others, hothers, h⟩ := Except.bind_eq_ok.mp h
    obtain rfl := Except.pure_eq_ok.mp h
    obtain ⟨hspecs, hmessages⟩ := ih hothers
    constructor
    · rintro other (_ | ⟨_, hother⟩)
      · exact ⟨first, by simp, hfirst⟩
      · obtain ⟨message, hmessage, h⟩ := hspecs other hother
        exact ⟨message, List.mem_cons_of_mem _ hmessage, h⟩
    · rintro message (_ | ⟨_, hmessage⟩)
      · exact ⟨spec, by simp, hfirst⟩
      · obtain ⟨other, hother, h⟩ := hmessages message hmessage
        exact ⟨other, List.mem_cons_of_mem _ hother, h⟩

/-! ### The types of descriptors -/

/-- The types that messages declare by themselves, without what is nested in them. -/
def typesIn (messages : List Message) : List (String × Declared) :=
  messages.flatMap fun message =>
    (message.fullName, .message) :: message.enums.map fun e => (e.fullName, .enum)

theorem typesIn_append (messages others : List Message) :
    typesIn (messages ++ others) = typesIn messages ++ typesIn others :=
  List.flatMap_append

/-- The entries of map fields declare their own names and nothing else. -/
theorem typesIn_entries {owner : String} {specs : List FieldSpec} {entries : List Message}
    (h : List.Forall₂ (fun spec entry => ∃ map, spec.map = some map ∧
      manifest.IsEntry owner spec map entry) specs entries) :
    typesIn entries =
      specs.map fun spec => (Text.qualified owner (entryName spec.name), Declared.message) := by
  induction h with
  | nil => rfl
  | cons hentry _ ih =>
    obtain ⟨map, -, hentry⟩ := hentry
    rw [← List.singleton_append, typesIn_append, ih]
    simp [typesIn, hentry.fullName, hentry.enums]

theorem flat_of_entries {owner : String} {specs : List FieldSpec} {entries : List Message}
    (h : List.Forall₂ (fun spec entry => ∃ map, spec.map = some map ∧
      manifest.IsEntry owner spec map entry) specs entries) :
    ∀ entry ∈ entries, entry.nested = [] := by
  induction h with
  | nil => simp
  | cons hentry _ ih =>
    obtain ⟨map, -, hentry⟩ := hentry
    exact List.forall_mem_cons.mpr ⟨hentry.nested, ih⟩

mutual

theorem typesIn_withNested_perm (hnames : manifest.declared = .ok names) :
    ∀ (scope : String) (spec : MessageSpec) {message : Message},
      messageOf names path scope spec = .ok message →
        (typesIn message.withNested).Perm (declaredByMessage scope spec)
  | scope, ⟨name, _, _, fields, messages, enums⟩, message, h => by
    obtain ⟨own, entries, hown, hfields, hname, hnested, -, henums⟩ := messageOf_eq_ok h
    have hentries := entries_of_fieldsOf hnames hfields
    have hself : typesIn [message] = (Text.qualified scope name, .message) ::
        enums.map (declaredByEnum (Text.qualified scope name)) := by
      simp [typesIn, hname, henums, Function.comp_def, enumOf, declaredByEnum]
    have hinner := typesIn_allWithNested_perm hnames (Text.qualified scope name) messages hown
    rw [Message.withNested_eq, hnested, Message.allWithNested_append,
      Message.allWithNested_of_flat (flat_of_entries hentries), typesIn_append, typesIn_append,
      typesIn_entries hentries, hself, declaredByMessage_eq]
    refine ((hinner.append_right _).append_right _).trans (List.perm_iff_count.mpr fun item => ?_)
    simp only [List.count_append, List.count_cons, List.count_nil]
    omega

theorem typesIn_allWithNested_perm (hnames : manifest.declared = .ok names) :
    ∀ (scope : String) (specs : List MessageSpec) {messages : List Message},
      messagesOf names path scope specs = .ok messages →
        (typesIn (Message.allWithNested messages)).Perm (declaredByMessages scope specs)
  | _, [], _, h => by
    cases h
    exact .nil
  | scope, spec :: rest, _, h => by
    obtain ⟨first, hfirst, h⟩ := Except.bind_eq_ok.mp h
    obtain ⟨others, hothers, h⟩ := Except.bind_eq_ok.mp h
    obtain rfl := Except.pure_eq_ok.mp h
    rw [Message.allWithNested, typesIn_append, declaredByMessages]
    exact (typesIn_withNested_perm hnames scope spec hfirst).append
      (typesIn_allWithNested_perm hnames scope rest hothers)

end

/-! ### Files -/

/-- A file is the descriptor of a file of a manifest. -/
structure DescribesFile (names : Dictionary Declared) (spec : FileSpec) (file : File) : Prop where
  messages : messagesOf names spec.path spec.package spec.messages = .ok file.messages
  enums : file.enums = spec.enums.map (enumOf spec.package)

theorem describes_of_filesOf {specs : List FileSpec} {files : List File}
    (h : filesOf names specs = .ok files) : List.Forall₂ (DescribesFile names) specs files := by
  induction specs generalizing files with
  | nil =>
    cases h
    exact .nil
  | cons spec rest ih =>
    obtain ⟨messages, hmessages, h⟩ := Except.bind_eq_ok.mp h
    obtain ⟨others, hothers, h⟩ := Except.bind_eq_ok.mp h
    obtain rfl := Except.pure_eq_ok.mp h
    exact .cons ⟨hmessages, rfl⟩ (ih hothers)

/-- The descriptors of a manifest, taken apart. -/
theorem descriptors_eq_ok (h : manifest.descriptors = .ok set) : ∃ names,
    manifest.declared = .ok names ∧ List.Forall₂ (DescribesFile names) manifest.files set.files := by
  obtain ⟨names, hnames, h⟩ := Except.bind_eq_ok.mp h
  obtain ⟨files, hfiles, h⟩ := Except.bind_eq_ok.mp h
  obtain rfl := Except.pure_eq_ok.mp h
  exact ⟨names, hnames, describes_of_filesOf hfiles⟩

/-- The types that a file declares. -/
def typesOfFile (file : File) : List (String × Declared) :=
  typesIn (Message.allWithNested file.messages) ++ file.enums.map fun e => (e.fullName, .enum)

theorem typesOfFile_perm (hnames : manifest.declared = .ok names) {spec : FileSpec} {file : File}
    (h : DescribesFile names spec file) :
    (typesOfFile file).Perm (declaredByMessages spec.package spec.messages ++
      spec.enums.map (declaredByEnum spec.package)) := by
  rw [typesOfFile, h.enums, List.map_map]
  exact (typesIn_allWithNested_perm hnames _ _ h.messages).append_right _

theorem flatMap_typesOfFile_perm (hnames : manifest.declared = .ok names) {specs : List FileSpec}
    {files : List File} (h : List.Forall₂ (DescribesFile names) specs files) :
    (files.flatMap typesOfFile).Perm (specs.flatMap fun spec =>
      declaredByMessages spec.package spec.messages ++
        spec.enums.map (declaredByEnum spec.package)) := by
  induction h with
  | nil => exact .nil
  | cons hfile _ ih => exact (typesOfFile_perm hnames hfile).append ih

end Manifest

namespace DescriptorSet

open Manifest (Declared)

/-- The names of the messages and enums of a set, with what they name. -/
def types (set : DescriptorSet) : List (String × Declared) :=
  set.messages.map (fun message => (message.fullName, .message)) ++
    set.enumerations.map fun e => (e.fullName, .enum)

theorem messages_perm (set : DescriptorSet) :
    set.messages.Perm (set.files.flatMap fun file => Message.allWithNested file.messages) := by
  rw [messages, messageIndex, List.map_flatMap]
  refine List.Perm.flatMap (List.reverse_perm _) fun file _ => ?_
  simp [Function.comp_def]

theorem enumerations_perm (set : DescriptorSet) :
    set.enumerations.Perm (set.files.flatMap fun file =>
      (Message.allWithNested file.messages).flatMap (·.enums) ++ file.enums) := by
  rw [enumerations, enumIndex, List.map_flatMap]
  refine List.Perm.flatMap (List.reverse_perm _) fun file _ => ?_
  rw [List.map_map, show Prod.fst ∘ (fun e : EnumType => (e, file.package)) = id from rfl, List.map_id]
  exact (List.Perm.flatMap_left _ fun message _ => List.reverse_perm _).append (List.reverse_perm _)

/-- The types of a set are those of its files. -/
theorem types_perm (set : DescriptorSet) :
    set.types.Perm (set.files.flatMap Manifest.typesOfFile) := by
  have hfile : ∀ file : File, ((Message.allWithNested file.messages).map
      (fun message : Message => (message.fullName, Declared.message)) ++
      ((Message.allWithNested file.messages).flatMap (fun message : Message => message.enums) ++
        file.enums).map fun e : EnumType => (e.fullName, Declared.enum)).Perm
      (Manifest.typesOfFile file) := fun file => by
    rw [Manifest.typesOfFile, List.map_append, ← List.append_assoc, List.map_flatMap]
    exact (List.map_append_flatMap_perm _ _ _).append_right _
  refine ((set.messages_perm.map _).append (set.enumerations_perm.map _)).trans ?_
  rw [List.map_flatMap, List.map_flatMap]
  exact (List.flatMap_append_perm _ _ _).trans (List.Perm.flatMap_left _ fun file _ => hfile file)

end DescriptorSet

namespace Manifest

variable {manifest : Manifest} {names : Dictionary Declared} {full path : String} {kind : Declared}
  {set : DescriptorSet} {message : Message}

/-- The types of the descriptors are the declared ones. -/
theorem types_perm (h : manifest.descriptors = .ok set) : set.types.Perm manifest.declarations := by
  obtain ⟨names, hnames, hfiles⟩ := descriptors_eq_ok h
  exact set.types_perm.trans (flatMap_typesOfFile_perm hnames hfiles)

/-- The names of the descriptors are all different. -/
theorem nodup_types (h : manifest.descriptors = .ok set) : (set.types.map (·.1)).Nodup := by
  obtain ⟨names, hnames, -⟩ := descriptors_eq_ok h
  exact ((types_perm h).map _).nodup_iff.mpr (nodup_declarations hnames)

theorem mem_types (h : manifest.descriptors = .ok set) :
    (full, kind) ∈ set.types ↔ manifest.DeclaresType full kind := by
  rw [(types_perm h).mem_iff, mem_declarations]

theorem declaredOnce (h : manifest.descriptors = .ok set) : set.DeclaredOnce := by
  have hnodup := nodup_types h
  rw [DescriptorSet.types, List.map_append, List.map_map] at hnodup
  exact (List.nodup_append.mp hnodup).1

/-! ### Each declaration has its descriptor -/

theorem exists_messageOf (hfiles : List.Forall₂ (DescribesFile names) manifest.files set.files)
    {spec : MessageSpec} (hspec : manifest.Declares full spec) :
    ∃ message ∈ set.messages, ∃ path scope, full = Text.qualified scope spec.name ∧
      messageOf names path scope spec = .ok message := by
  induction hspec with
  | ofFile hfile hspec =>
    obtain ⟨file, hmem, hfile⟩ := exists_mem_of_forall₂ hfiles hfile
    obtain ⟨message, hmessage, hof⟩ := (mem_of_messagesOf hfile.messages).1 _ hspec
    exact ⟨message, DescriptorSet.mem_messages_of_file hmem hmessage, _, _, rfl, hof⟩
  | ofMessage _ hspec ih =>
    obtain ⟨outer, houter, path, scope, rfl, hof⟩ := ih
    obtain ⟨own, entries, hown, -, -, hnested, -⟩ := messageOf_eq_ok hof
    obtain ⟨message, hmessage, hof⟩ := (mem_of_messagesOf hown).1 _ hspec
    have hinner : message ∈ outer.nested := hnested ▸ List.mem_append_left _ hmessage
    exact ⟨message, DescriptorSet.mem_messages_of_nested houter hinner, _, _, rfl, hof⟩

/-- Each declared message has its descriptor. -/
theorem exists_descriptor (h : manifest.descriptors = .ok set) {spec : MessageSpec}
    (hspec : manifest.Declares full spec) :
    ∃ message ∈ set.messages, manifest.DescribesMessage full spec message := by
  obtain ⟨names, hnames, hfiles⟩ := descriptors_eq_ok h
  obtain ⟨message, hmessage, path, scope, rfl, hof⟩ := exists_messageOf hfiles hspec
  exact ⟨message, hmessage, describesMessage_of_messageOf hnames hof⟩

/-! ### Each descriptor has its declaration -/

/-- A descriptor of a declared message, or an entry of one of its map fields. -/
def IsDescriptor (manifest : Manifest) (message : Message) : Prop :=
  ∃ full spec, manifest.Declares full spec ∧ (manifest.DescribesMessage full spec message ∨
    ∃ field map, manifest.IsEntry full field map message)

/-- A descriptor that is made of a declared message, or of one of its map fields. -/
def IsMade (manifest : Manifest) (names : Dictionary Declared) (message : Message) : Prop :=
  ∃ path scope spec, manifest.Declares (Text.qualified scope spec.name) spec ∧
    (messageOf names path scope spec = .ok message ∨
      ∃ field map, manifest.IsEntry (Text.qualified scope spec.name) field map message)

mutual

theorem isMade_of_messageOf (hnames : manifest.declared = .ok names) :
    ∀ (scope : String) (spec : MessageSpec) {root : Message},
      manifest.Declares (Text.qualified scope spec.name) spec →
      messageOf names path scope spec = .ok root →
      ∀ message ∈ root.withNested, manifest.IsMade names message
  | scope, ⟨name, comment, options, fields, messages, enums⟩, root, hspec, hof => by
    obtain ⟨own, entries, hown, hfields, -, hnested, -⟩ := messageOf_eq_ok hof
    have hentries := entries_of_fieldsOf hnames hfields
    intro message hmessage
    rw [Message.withNested_eq, hnested, Message.allWithNested_append,
      Message.allWithNested_of_flat (flat_of_entries hentries), List.append_assoc,
      List.mem_append, List.mem_append, List.mem_singleton] at hmessage
    rcases hmessage with hmessage | hmessage | rfl
    · exact isMade_of_messagesOf hnames _ messages (fun _ => .ofMessage hspec) hown message hmessage
    · obtain ⟨field, -, map, -, hentry⟩ := exists_mem_of_forall₂ hentries.flip hmessage
      exact ⟨path, scope, _, hspec, .inr ⟨field, map, hentry⟩⟩
    · exact ⟨path, scope, _, hspec, .inl hof⟩

theorem isMade_of_messagesOf (hnames : manifest.declared = .ok names) :
    ∀ (scope : String) (specs : List MessageSpec) {messages : List Message},
      (∀ spec ∈ specs, manifest.Declares (Text.qualified scope spec.name) spec) →
      messagesOf names path scope specs = .ok messages →
      ∀ message ∈ Message.allWithNested messages, manifest.IsMade names message
  | _, [], _, _, h => by
    cases h
    simp [Message.allWithNested]
  | scope, spec :: rest, _, hspecs, h => by
    obtain ⟨first, hfirst, h⟩ := Except.bind_eq_ok.mp h
    obtain ⟨others, hothers, h⟩ := Except.bind_eq_ok.mp h
    obtain rfl := Except.pure_eq_ok.mp h
    obtain ⟨hspec, hrest⟩ := List.forall_mem_cons.mp hspecs
    intro message hmessage
    rw [Message.allWithNested, List.mem_append] at hmessage
    rcases hmessage with hmessage | hmessage
    · exact isMade_of_messageOf hnames scope spec hspec hfirst message hmessage
    · exact isMade_of_messagesOf hnames scope rest hrest hothers message hmessage

end

/-- Each message of the set is made of a declared message, or of one of its map fields. -/
theorem isMade_of_mem (h : manifest.descriptors = .ok set) (hmessage : message ∈ set.messages) :
    ∃ names, manifest.declared = .ok names ∧ manifest.IsMade names message := by
  obtain ⟨names, hnames, hfiles⟩ := descriptors_eq_ok h
  obtain ⟨file, hfile, hmessage⟩ := DescriptorSet.mem_messages.mp hmessage
  obtain ⟨spec, hspec, hof⟩ := exists_mem_of_forall₂ hfiles.flip hfile
  exact ⟨names, hnames,
    isMade_of_messagesOf hnames _ _ (fun _ => .ofFile hspec) hof.messages message hmessage⟩

/-- Each message of the set is the descriptor of a declared message, or an entry of one of its map
fields. -/
theorem isDescriptor_of_mem (h : manifest.descriptors = .ok set) (hmessage : message ∈ set.messages) :
    manifest.IsDescriptor message := by
  obtain ⟨names, hnames, path, scope, spec, hspec, hof | hentry⟩ := isMade_of_mem h hmessage
  · exact ⟨_, spec, hspec, .inl (describesMessage_of_messageOf hnames hof)⟩
  · exact ⟨_, spec, hspec, .inr hentry⟩

end Manifest

end MessageSchema
