import MessageSchema.CompilationUnit
import MessageSchema.Descriptor.Codec
import MessageSchema.Proofs.Declarations
import MessageSchema.Proofs.Document.RoundTrip

/-!
# Descriptors survive JSON

A file that is written to JSON and read again is the same file, and so a set of files that is written
and read again compiles to the same units. Each declaration has a table of its own, and the tables of
inner declarations are looked at before those that use them. The one thing that does not come back is
an overlay that is null: it is read as no overlay at all.

## Main definitions

* `Message.KeepsOverlays`: the overlays of a message and of what is nested in it come back.
* `File.overlays`: all overlays in a file.

## Main results

* `Message.decode_encode`: a message comes back if the messages nested in it do.
* `File.ofJson_arranged`: a file comes back.
* `DescriptorSet.files_read_back`: the files of a set come back, and compile to the same units.
-/

namespace MessageSchema

variable {ρ α : Type} {arrange : Json → Json}

/-! ### Numbers -/

theorem readUInt32_toNat (n : UInt32) : readUInt32 (.integer n.toNat) = .ok n := by
  have hread := Node.whole_integer "u32" (Int.natCast_nonneg n.toNat)
    (Int.le_sub_one_of_lt (Int.ofNat_lt.mpr n.toNat_lt))
  exact Except.map_eq_ok.mpr ⟨_, Except.map_eq_ok.mpr ⟨_, hread, rfl⟩, UInt32.ofNat_toNat⟩

theorem readInt32_toInt (n : Int32) : readInt32 (.integer n.toInt) = .ok n := by
  have hread := Node.whole_integer "i32" n.le_toInt (Int.le_sub_one_of_lt n.toInt_lt)
  exact Except.map_eq_ok.mpr ⟨_, hread, Int32.ofInt_toInt n⟩

/-! ### Members that several declarations have -/

namespace Member

variable {value r : ρ} {name : String} {read : Json → Decoded α} {write : α → Json}

theorem Restores.text (harrange : Json.Arranges arrange) {get : ρ → String}
    {set : String → ρ → ρ} : (Member.required name Node.text .text get set).Restores arrange value r
      (set (get r)) :=
  .required (by rw [harrange.leaf rfl]; rfl)

theorem Restores.flag (harrange : Json.Arranges arrange) {get : ρ → Bool} {set : Bool → ρ → ρ} :
    (Member.defaulted name Node.boolean .boolean get set).Restores arrange value r (set (get r)) :=
  .defaulted (by rw [harrange.leaf rfl]; rfl)

theorem Restores.number (harrange : Json.Arranges arrange) {get : ρ → UInt32}
    {set : UInt32 → ρ → ρ} :
    (Member.required name readUInt32 (fun n => .integer n.toNat) get set).Restores arrange value r
      (set (get r)) :=
  .required (by rw [harrange.leaf rfl, readUInt32_toNat])

theorem Restores.absent {get : ρ → Option α} {set : Option α → ρ → ρ}
    (h : ∀ x ∈ get r, (arrange (write x)).isNull = false ∧ read (arrange (write x)) = .ok x)
    (hnone : set none value = value) :
    (absentMember name read write get set).Restores arrange value r (set (get r)) := by
  refine .sparse (fun node hnode => ?_) fun hwrite => ?_
  · obtain ⟨x, hx, rfl⟩ := Option.map_eq_some_iff.mp hnode
    obtain ⟨hnull, hread⟩ := h x hx
    rw [hx, Node.optional_of_isNull_eq_false hnull hread]
  · rw [Option.map_eq_none_iff.mp hwrite, hnone]

theorem Restores.always (harrange : Json.Arranges arrange) {get : ρ → List α}
    {set : List α → ρ → ρ} (h : ∀ x ∈ get r, read (arrange (write x)) = .ok x) :
    (listMember name read write get set).Restores arrange value r (set (get r)) := by
  refine .defaulted ?_
  rw [harrange.array, List.map_map]
  exact Node.list_map_eq_ok h

theorem Holds.always (harrange : Json.Arranges arrange) {get : ρ → List α} {set : List α → ρ → ρ}
    {x : α} (hx : x ∈ get r) : (listMember name read write get set).Holds arrange r (write x) :=
  ⟨_, rfl, (harrange.depth_lt_of_mem_items (List.mem_map_of_mem hx)).le⟩

theorem Restores.comment (harrange : Json.Arranges arrange) {get : ρ → String}
    {set : String → ρ → ρ} : (commentMember get set).Restores arrange value r (set (get r)) := by
  have hleading : ∀ member ∈ commentMembers,
      member.Restores arrange "" (get r) fun _ => get r := by
    refine List.forall_mem_singleton.mpr (.sparse (fun node hnode => ?_) fun hwrite => ?_)
    · split at hnode
      · cases hnode
      · cases hnode
        rw [harrange.leaf rfl]
        rfl
    · simpa using hwrite
  refine .defaulted (decode_encode harrange rfl (.cons (hleading _ List.mem_cons_self) .nil) ?_
    (List.pairwise_singleton _ _) rfl)
  exact List.nodup_singleton "leading"

end Member

/-! ### Declarations without others of their kind inside -/

/-- An overlay that is no null and stays as it is when members are put into order. -/
def Kept (arrange : Json → Json) (overlay : Json) : Prop :=
  overlay.isNull = false ∧ arrange overlay = overlay

theorem Kept.comesBack {overlay : Json} (h : Kept arrange overlay) :
    (arrange (id overlay)).isNull = false ∧ Node.value (arrange (id overlay)) = .ok overlay := by
  rw [id, h.2]
  exact ⟨h.1, rfl⟩

namespace Field

theorem decode_encode (harrange : Json.Arranges arrange) {field : Field}
    (h : ∀ overlay ∈ field.overlay, Kept arrange overlay) :
    (Member.record "FieldDescriptor" default members).decode (arrange (Member.encode members field)) =
      .ok field := by
  refine Member.decode_encode harrange rfl
    (.cons (.text harrange) <| .cons (.number harrange) <|
    .cons (.required (by rw [harrange.leaf rfl]; cases field.kind <;> rfl)) <|
    .cons (.defaulted (by rw [harrange.leaf rfl]; cases field.cardinality <;> rfl)) <|
    .cons (.absent (fun s _ => by rw [harrange.leaf rfl]; exact ⟨rfl, rfl⟩) rfl) <|
    .cons (.absent (fun s _ => by rw [harrange.leaf rfl]; exact ⟨rfl, rfl⟩) rfl) <|
    .cons (.flag harrange) <| .cons (.comment harrange) <|
    .cons (.absent (fun overlay hoverlay => (h overlay hoverlay).comesBack) rfl) .nil) ?_ ?_ rfl
  · decide
  · simp [Member.Commute]

end Field

theorem UnsupportedField.decode_encode (harrange : Json.Arranges arrange) (field : UnsupportedField) :
    (Member.record "UnsupportedField" default members).decode (arrange (Member.encode members field)) =
      .ok field := by
  refine Member.decode_encode harrange rfl
    (.cons (.text harrange) <| .cons (.number harrange) <| .cons (.text harrange) .nil) ?_ ?_ rfl
  · decide
  · simp [Member.Commute]

theorem Oneof.decode_encode (harrange : Json.Arranges arrange) (group : Oneof) :
    (Member.record "OneofDescriptor" default members).decode (arrange (Member.encode members group)) =
      .ok group := by
  refine Member.decode_encode harrange rfl
    (.cons (.text harrange) <| .cons (.flag harrange) .nil) ?_ ?_ rfl
  · decide
  · exact List.pairwise_pair.mpr fun _ => rfl

theorem EnumValue.decode_encode (harrange : Json.Arranges arrange) (value : EnumValue) :
    (Member.record "EnumValueDescriptor" default members).decode
      (arrange (Member.encode members value)) = .ok value := by
  refine Member.decode_encode harrange rfl
    (.cons (.text harrange) <|
    .cons (.required (by rw [harrange.leaf rfl, readInt32_toInt])) .nil) ?_ ?_ rfl
  · decide
  · exact List.pairwise_pair.mpr fun _ => rfl

theorem EnumType.ofJson_arranged (harrange : Json.Arranges arrange) (e : EnumType) :
    EnumType.ofJson (arrange e.toJson) = .ok e := by
  have hvalues : Node.list (Member.record "EnumValueDescriptor" default EnumValue.members).decode
      (arrange (.array (e.values.map (Member.encode EnumValue.members)))) = .ok e.values := by
    rw [harrange.array, List.map_map]
    exact Node.list_map_eq_ok fun value _ => EnumValue.decode_encode harrange value
  refine Member.decode_encode harrange rfl
    (.cons (.text harrange) <| .cons (.text harrange) <| .cons (.required hvalues) <|
    .cons (.comment harrange) .nil) ?_ ?_ rfl
  · decide
  · simp [Member.Commute]

/-! ### Messages -/

namespace Message

/-- The overlays of a message and of its fields. -/
def ownOverlays (message : Message) : List Json :=
  message.overlay.toList ++ message.fields.filterMap (·.overlay)

variable {message : Message} {read : Json → Decoded Message} {write : Message → Json}

theorem nodup_names : (Member.record "MessageDescriptor" default (members read write)).names.Nodup := by
  have hclosed : (Member.record "MessageDescriptor" default (members read write)).names =
      (Member.record "MessageDescriptor" default
        (members (fun _ => .ok default) fun _ => .null)).names := rfl
  rw [hclosed]
  decide

/-- A message comes back if the messages nested in it do. -/
theorem decode_encode (harrange : Json.Arranges arrange)
    (hown : ∀ overlay ∈ message.ownOverlays, Kept arrange overlay)
    (hnested : ∀ inner ∈ message.nested, read (arrange (write inner)) = .ok inner) :
    (Member.record "MessageDescriptor" default (members read write)).decode
      (arrange (Member.encode (members read write) message)) = .ok message := by
  obtain ⟨hoverlay, hfields⟩ := List.forall_mem_append.mp hown
  refine Member.decode_encode harrange rfl
    (.cons (.text harrange) <| .cons (.text harrange) <| .cons (.text harrange) <|
    .cons (.always harrange fun field hfield => Field.decode_encode harrange
      fun overlay h => hfields overlay (List.mem_filterMap.mpr ⟨field, hfield, h⟩)) <|
    .cons (.always harrange hnested) <|
    .cons (.always harrange fun e _ => EnumType.ofJson_arranged harrange e) <|
    .cons (.always harrange fun group _ => Oneof.decode_encode harrange group) <|
    .cons (.flag harrange) <| .cons (.comment harrange) <|
    .cons (.absent (fun overlay h => (hoverlay overlay (Option.mem_toList.mpr h)).comesBack) rfl) <|
    .cons (.list harrange (fun field _ => UnsupportedField.decode_encode harrange field)
      fun _ => rfl) .nil) nodup_names ?_ (by cases message; rfl)
  simp [Member.Commute]

theorem nestingOfAll_le_iff {messages : List Message} {k : ℕ} :
    nestingOfAll messages ≤ k ↔ ∀ message ∈ messages, message.nesting ≤ k := by
  induction messages with
  | nil => simp [nestingOfAll]
  | cons message rest ih => rw [nestingOfAll, max_le_iff, ih, List.forall_mem_cons]

/-- A message nests one level deeper than the messages directly inside it. -/
theorem nesting_le_iff {k : ℕ} :
    message.nesting ≤ k ↔ 0 < k ∧ ∀ inner ∈ message.nested, inner.nesting < k := by
  have hnesting : message.nesting = nestingOfAll message.nested + 1 := by cases message; rfl
  cases k with
  | zero => simp [hnesting]
  | succ k =>
    simp only [hnesting, Nat.add_le_add_iff_right, nestingOfAll_le_iff, Nat.lt_succ_iff, Nat.zero_le,
      true_and]

/-- All overlays of a message and of what is nested in it are kept. -/
def KeepsOverlays (arrange : Json → Json) (message : Message) : Prop :=
  ∀ inner ∈ message.withNested, ∀ overlay ∈ inner.ownOverlays, Kept arrange overlay

theorem KeepsOverlays.nested (h : message.KeepsOverlays arrange) :
    ∀ inner ∈ message.nested, inner.KeepsOverlays arrange := by
  rw [KeepsOverlays, withNested_eq, List.forall_mem_append] at h
  exact fun inner hinner deeper hdeeper =>
    h.1 deeper (mem_allWithNested.mpr ⟨inner, hinner, hdeeper⟩)

/-- What is written does not depend on how messages are read. -/
theorem toJsonWithin_succ (read : Json → Decoded Message) (n : ℕ) (message : Message) :
    toJsonWithin (n + 1) message = Member.encode (members read (toJsonWithin n)) message := rfl

theorem nestsWithin (harrange : Json.Arranges arrange) :
    NestsWithin arrange nested nesting toJsonWithin ofJsonWithin (KeepsOverlays arrange) where
  nesting_le_iff := nesting_le_iff
  good := KeepsOverlays.nested
  depth_pos {message n} _ := by
    rw [toJsonWithin_succ (ofJsonWithin n)]
    exact Member.depth_encode_pos harrange (Member.nodup_map_name rfl nodup_names)
  depth_lt {message n} _ inner hinner := by
    rw [toJsonWithin_succ (ofJsonWithin n)]
    have hmember := List.mem_of_find?_eq_some (p := (·.name == "nested"))
      (l := members (ofJsonWithin n) (toJsonWithin n)) rfl
    exact (Member.Holds.always harrange hinner).depth_lt harrange
      (Member.nodup_map_name rfl nodup_names) hmember
  comesBack {message n m} h hnested := by
    rw [toJsonWithin_succ (ofJsonWithin m)]
    exact decode_encode harrange (h message (mem_withNested_self message))
      fun inner hinner => (hnested inner hinner).2

theorem ofJson_arranged (harrange : Json.Arranges arrange) (h : message.KeepsOverlays arrange) :
    ofJson (arrange message.toJson) = .ok message :=
  (nestsWithin harrange).read_depth h

end Message

/-! ### Files and sets -/

namespace File

/-- All overlays in a file: its own, and those of its messages and their fields. -/
def overlays (file : File) : List Json :=
  file.overlay.toList ++ (Message.allWithNested file.messages).flatMap (·.ownOverlays)

theorem ofJson_arranged (harrange : Json.Arranges arrange) {file : File}
    (h : ∀ overlay ∈ file.overlays, Kept arrange overlay) :
    ofJson (arrange file.toJson) = .ok file := by
  obtain ⟨hoverlay, hmessages⟩ := List.forall_mem_append.mp h
  refine Member.decode_encode harrange rfl
    (.cons (.text harrange) <|
    .cons (.defaulted (by rw [harrange.leaf rfl]; rfl)) <|
    .cons (.always harrange fun message hmessage => Message.ofJson_arranged harrange
      fun inner hinner overlay hoverlay => hmessages overlay (List.mem_flatMap.mpr
        ⟨inner, Message.mem_allWithNested.mpr ⟨message, hmessage, hinner⟩, hoverlay⟩)) <|
    .cons (.always harrange fun e _ => EnumType.ofJson_arranged harrange e) <|
    .cons (.absent (fun overlay h => (hoverlay overlay (Option.mem_toList.mpr h)).comesBack) rfl)
      .nil) ?_ ?_ rfl
  · decide
  · simp [Member.Commute]

end File

namespace DescriptorSet

/-- **Files come back.** A file that is written to JSON and read again is the same file, also when the
members of objects are in key order in between, as they are in overlays that were read from a
document. A set that is written and read again compiles to the same units. -/
theorem files_read_back {set : DescriptorSet}
    (h : ∀ file ∈ set.files, ∀ overlay ∈ file.overlays, overlay.isNull = false) :
    (∀ file ∈ set.files, File.ofJson file.toJson = .ok file ∧
      ((∀ overlay ∈ file.overlays, overlay.inKeyOrder = overlay) →
        File.ofJson file.toJson.inKeyOrder = .ok file)) ∧
    ∃ files, Node.list File.ofJson (.array (set.files.map File.toJson)) = .ok files ∧
      ∀ settings, CompilationUnit.compileAll ⟨files, set.targets⟩ settings =
        CompilationUnit.compileAll set settings := by
  have hread : ∀ file ∈ set.files, File.ofJson file.toJson = .ok file := fun file hfile =>
    id_eq file.toJson ▸ File.ofJson_arranged Json.arranges_id
      fun overlay hoverlay => ⟨h file hfile overlay hoverlay, rfl⟩
  refine ⟨fun file hfile => ⟨hread file hfile, fun hsorted => ?_⟩, set.files, ?_, fun _ => rfl⟩
  · exact File.ofJson_arranged Json.arranges_inKeyOrder
      fun overlay hoverlay => ⟨h file hfile overlay hoverlay, hsorted overlay hoverlay⟩
  · exact Node.list_map_eq_ok hread

/-- A file with one declaration of each kind, and messages in messages. -/
def depot : File where
  path := "post/depot.proto"
  package := "post"
  overlay := some (.object [("generate", .boolean true)])
  enums := [{ name := "Size", fullName := "post.Size", values := [⟨"SMALL", 0⟩, ⟨"LARGE", -7⟩] }]
  messages := [{
    name := "Depot"
    fullName := "post.Depot"
    file := "post/depot.proto"
    comment := "Where parcels wait."
    overlay := some (.object [("additionalProperties", .boolean false), ("generate", .null)])
    oneofs := [⟨"place", false⟩, ⟨"_size", true⟩]
    unsupported := [⟨"legacy", 9, "TYPE_LEGACY"⟩]
    fields := [
      { name := "town", number := 1, kind := .string, oneof := some "place", comment := "Its town." },
      { name := "size", number := 2, kind := .enum, typeName := some ".post.Size",
        oneof := some "_size", optional := true, overlay := some (.array [.integer 3]) },
      { name := "rooms", number := 3, kind := .message, cardinality := .map,
        typeName := some ".post.Depot.RoomsEntry" }]
    nested := [{
      name := "RoomsEntry"
      fullName := "post.Depot.RoomsEntry"
      file := "post/depot.proto"
      mapEntry := true
      nested := [{
        name := "Note"
        fullName := "post.Depot.RoomsEntry.Note"
        file := "post/depot.proto"
        enums := [
          { name := "E", fullName := "post.Depot.RoomsEntry.Note.E", values := [], comment := "None." }]
        overlay := some (.text "ignored") }]
      fields := [{ name := "key", number := 1, kind := .uint32 },
        { name := "value", number := 2, kind := .string, cardinality := .list }] }] }]

/-- Every kind of declaration. -/
theorem files_read_back_depot :
    File.ofJson depot.toJson = .ok depot ∧ File.ofJson depot.toJson.inKeyOrder = .ok depot ∧
      ∃ files, Node.list File.ofJson (.array [depot.toJson]) = .ok files ∧
        ∀ settings, CompilationUnit.compileAll ⟨files, []⟩ settings =
          CompilationUnit.compileAll ⟨[depot], []⟩ settings := by
  have hnull : ∀ file ∈ (mk [depot] []).files, ∀ overlay ∈ file.overlays, overlay.isNull = false :=
    List.forall_mem_singleton.mpr (by decide)
  obtain ⟨hfiles, hset⟩ := files_read_back hnull
  obtain ⟨hread, hsorted⟩ := hfiles depot List.mem_cons_self
  refine ⟨hread, hsorted ?_, hset⟩
  have hoverlays : depot.overlays = [.object [("generate", .boolean true)], .text "ignored",
      .object [("additionalProperties", .boolean false), ("generate", .null)],
      .array [.integer 3]] := rfl
  rw [hoverlays]
  simp only [List.forall_mem_cons, List.not_mem_nil, false_imp_iff, implies_true, and_true]
  exact ⟨rfl, rfl, rfl, rfl⟩

end DescriptorSet

end MessageSchema
