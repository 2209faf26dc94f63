import MessageSchema.Proofs.Except
import MessageSchema.Proofs.Protojson.Position

/-!
# Nothing is lost or misplaced

The descriptors of a document are those of its declarations, one for one. Each message is found at
the address at which the document has it, under the full name that its package and the names on the way
make, with its fields, enums and nested messages in order. A field of an unsupported kind is set apart,
and the fields behind it keep their positions, under which their comments are found.

## Main definitions

* `Protojson.EnumAgrees`, `Protojson.FieldAgrees`, `Protojson.MessageAgrees`, `Protojson.FileAgrees`:
  a descriptor is that of a declaration of the document.

## Main results

* `Protojson.fieldsOf_split`: fields are set apart by their kind and keep their positions.
* `Protojson.ConvertedAt.inner`: a step from an address to those below it.
* `Protojson.messageAgrees_of_messageOf`: the descriptor of a message is that of its declaration.
* `Protojson.load_agrees`: each file of a loaded set agrees with its file of the document.
-/

namespace MessageSchema.Protojson

/-! ### What a descriptor has to be -/

/-- A field is repeated by its label, as a name or as a number. -/
def RawField.IsRepeated (raw : RawField) : Prop :=
  raw.label = some (.text "LABEL_REPEATED") ∨ raw.label = some (.integer 3)

/-- Whether the kind of a field is one of those that are supported. -/
def RawField.isSupported (raw : RawField) : Bool :=
  (kindOf raw.type).toOption.isSome

/-- A message is the entry of a map if its options say so. -/
def RawMessage.IsMapEntry (raw : RawMessage) : Prop :=
  raw.options.bind (·.member? "mapEntry") = some (.boolean true)

/-- The descriptor of an enum inside of what has a name with the parts `scope`, described under the
path `path`. -/
structure EnumAgrees (locations : List RawLocation) (scope : List String) (path : List Int)
    (raw : RawEnum) (e : EnumType) : Prop where
  name : e.name = raw.name
  fullName : e.fullName = fullNameOf (scope ++ [raw.name])
  values : e.values = raw.values.map fun value => ⟨value.name, .ofInt value.number⟩
  comment : Commented locations path e.comment

/-- The descriptor of a supported field of the message `around`, whose full name has the parts
`scope`. -/
structure FieldAgrees (locations : List RawLocation) (scope : List String) (around : RawMessage)
    (path : List Int) (raw : RawField) (field : Field) : Prop where
  name : field.name = raw.name
  number : field.number = .ofNat raw.number
  kind : kindOf raw.type = .ok field.kind
  typeName : field.typeName = raw.typeName.map Text.withoutDot
  repeated : field.cardinality ≠ .singular ↔ raw.IsRepeated
  map : field.cardinality = .map ↔ raw.IsRepeated ∧ field.kind = .message ∧
    ∃ entry ∈ around.nested, entry.IsMapEntry ∧
      field.typeName = some (fullNameOf (scope ++ [entry.name]))
  comment : Commented locations path field.comment

/-- What is kept of a field of an unsupported kind. -/
structure UnsupportedAgrees (raw : RawField) (field : UnsupportedField) : Prop where
  name : field.name = raw.name
  number : field.number = .ofNat raw.number
  kind : kindOf raw.type = .error field.kind

/-- The descriptor of the message at an address of the file `source` of a document, reached along
`names`. -/
structure MessageAgrees (source : RawFile) (address : List ℕ) (names : List String) (raw : RawMessage)
    (message : Message) : Prop where
  name : message.name = raw.name
  fullName : message.fullName = fullNameOf (source.package :: names)
  file : message.file = source.name
  nested : message.nested.map (·.name) = raw.nested.map (·.name)
  enums : List.Forall₂ (fun (e, i) => EnumAgrees source.locations (source.package :: names)
    (sourcePath address ++ [4, (i : Int)]) e) raw.enums.zipIdx message.enums
  fields : List.Forall₂ (fun (field, i) => FieldAgrees source.locations (source.package :: names) raw
    (sourcePath address ++ [2, (i : Int)]) field)
    (raw.fields.zipIdx.filter (·.1.isSupported)) message.fields
  unsupported : List.Forall₂ UnsupportedAgrees (raw.fields.filter (!·.isSupported))
    message.unsupported
  mapEntry : message.mapEntry = true ↔ raw.IsMapEntry
  comment : Commented source.locations (sourcePath address) message.comment

/-- The descriptor of a file: its messages are where the document has them, and there are no others. -/
structure FileAgrees (source : RawFile) (file : File) : Prop where
  path : file.path = source.name
  package : file.package = source.package
  messages : file.messages.map (·.name) = source.messages.map (·.name)
  enums : List.Forall₂ (fun (e, i) => EnumAgrees source.locations [source.package] [5, (i : Int)] e)
    source.enums.zipIdx file.enums
  converted : ∀ {address names raw}, source.Declares address names raw →
    ∃ message, file.Declares address message ∧ MessageAgrees source address names raw message
  origin : ∀ message ∈ Message.allWithNested file.messages, ∃ address names raw,
    source.Declares address names raw ∧ file.Declares address message ∧
      MessageAgrees source address names raw message

/-! ### Labels, kinds and options -/

theorem labelOf_eq_repeatedLabel_iff {raw : RawField} :
    labelOf raw.label = some repeatedLabel ↔ raw.IsRepeated := by
  rw [RawField.IsRepeated, repeatedLabel]
  generalize raw.label = label
  unfold labelOf
  split
  · simp
  · simp
  · simp
  · split
    · simp
    · rename_i hlimit
      simp only [Option.some.injEq, reduceCtorEq, Json.integer.injEq, false_or, false_iff]
      rintro rfl
      exact hlimit (by decide)
  · rename_i hrepeated hinteger
    simp only [reduceCtorEq, false_iff, not_or]
    exact ⟨hrepeated, hinteger 3⟩

variable {context : Context} {owner : Owner} {scope : String} {path : List Int}

/-! ### Fields -/

/-- Fields are set apart by their kind, and each keeps its position. -/
theorem fieldsOf_split {position : ℕ} {raws : List RawField} {fields : List Field}
    {unsupported : List UnsupportedField}
    (h : fieldsOf context owner position raws = .ok (fields, unsupported)) :
    List.Forall₂ (fun (raw, i) field => ∃ kind, kindOf raw.type = .ok kind ∧
        fieldOf context owner i raw kind = .ok field)
      ((raws.zipIdx position).filter (·.1.isSupported)) fields ∧
    List.Forall₂ UnsupportedAgrees (raws.filter (!·.isSupported)) unsupported := by
  induction raws generalizing position fields unsupported with
  | nil =>
    cases h
    exact ⟨.nil, .nil⟩
  | cons raw rest ih =>
    rw [fieldsOf] at h
    rw [List.zipIdx_cons]
    split at h
    · rename_i kind hkind
      obtain ⟨⟨others, more⟩, hothers, h⟩ := Except.bind_eq_ok.mp h
      obtain ⟨rfl, rfl⟩ := Prod.ext_iff.mp (Except.pure_eq_ok.mp h)
      obtain ⟨hfields, hunsupported⟩ := ih hothers
      have hraw : raw.isSupported = false := by rw [RawField.isSupported, hkind]; rfl
      rw [List.filter_cons_of_neg (by simp [hraw]), List.filter_cons_of_pos (by simp [hraw])]
      exact ⟨hfields, .cons ⟨rfl, rfl, hkind⟩ hunsupported⟩
    · rename_i kind hkind
      obtain ⟨field, hfield, h⟩ := Except.bind_eq_ok.mp h
      obtain ⟨⟨others, more⟩, hothers, h⟩ := Except.bind_eq_ok.mp h
      obtain ⟨rfl, rfl⟩ := Prod.ext_iff.mp (Except.pure_eq_ok.mp h)
      obtain ⟨hfields, hunsupported⟩ := ih hothers
      have hraw : raw.isSupported = true := by rw [RawField.isSupported, hkind]; rfl
      rw [List.filter_cons_of_pos (by simp [hraw]), List.filter_cons_of_neg (by simp [hraw])]
      exact ⟨.cons ⟨kind, hkind, hfield⟩ hfields, hunsupported⟩

/-- What a field of a supported kind becomes, whatever its oneof group. -/
theorem exists_eq_of_fieldOf {position : ℕ} {raw : RawField} {kind : FieldKind} {field : Field}
    (h : fieldOf context owner position raw kind = .ok field) :
    ∃ oneof optional, field =
      { name := raw.name
        number := .ofNat raw.number
        kind
        cardinality :=
          if labelOf raw.label = some repeatedLabel ∧ kind = .message ∧
            (raw.typeName.map Text.withoutDot).any owner.mapEntries.contains then .map
          else if labelOf raw.label = some repeatedLabel then .list else .singular
        typeName := raw.typeName.map Text.withoutDot
        oneof
        optional
        comment := context.commentAt (pathInto owner.path fieldsOfMessage position)
        overlay := overlay? "field" raw.options } := by
  simp only [fieldOf] at h
  split at h
  · obtain ⟨oneof, -, h⟩ := Except.bind_eq_ok.mp h
    exact ⟨oneof, _, (Except.pure_eq_ok.mp h).symm⟩
  · split at h
    · obtain ⟨oneof, -, h⟩ := Except.bind_eq_ok.mp h
      exact ⟨oneof, _, (Except.pure_eq_ok.mp h).symm⟩
    · obtain ⟨_, hnone, -⟩ := Except.bind_eq_ok.mp h
      cases hnone

theorem fieldAgrees_of_fieldOf {position : ℕ} {raw : RawField} {kind : FieldKind} {field : Field}
    {parts : List String} {around : RawMessage} (hkind : kindOf raw.type = .ok kind)
    (hentries : ∀ name, name ∈ owner.mapEntries ↔ ∃ entry ∈ around.nested, entry.IsMapEntry ∧
      name = fullNameOf (parts ++ [entry.name]))
    (h : fieldOf context owner position raw kind = .ok field) :
    FieldAgrees context.locations parts around (owner.path ++ [2, (position : Int)]) raw field := by
  obtain ⟨oneof, optional, rfl⟩ := exists_eq_of_fieldOf h
  refine ⟨rfl, rfl, hkind, rfl, ?repeated, ?map, commented_commentAt context _⟩
  case repeated =>
    rw [← labelOf_eq_repeatedLabel_iff]
    dsimp only
    split_ifs <;> simp_all
  case map =>
    have hany : (raw.typeName.map Text.withoutDot).any owner.mapEntries.contains = true ↔
        ∃ entry ∈ around.nested, entry.IsMapEntry ∧
          raw.typeName.map Text.withoutDot = some (fullNameOf (parts ++ [entry.name])) := by
      rw [Option.any_eq_true]
      simp only [List.contains_eq_mem, decide_eq_true_eq, hentries]
      constructor
      · rintro ⟨_, hname, entry, hentry, hmap, rfl⟩
        exact ⟨entry, hentry, hmap, hname⟩
      · rintro ⟨entry, hentry, hmap, hname⟩
        exact ⟨_, hname, entry, hentry, hmap, rfl⟩
    rw [← labelOf_eq_repeatedLabel_iff, ← hany]
    dsimp only
    split_ifs <;> simp_all

/-! ### Enums and messages -/

theorem enumsOf_agrees (context : Context) (parts : List String) (path : List Int) (number : Int)
    (raws : List RawEnum) :
    List.Forall₂ (fun (raw, i) => EnumAgrees context.locations parts (path ++ [number, (i : Int)]) raw)
      raws.zipIdx (enumsOf context (fullNameOf parts) path number raws) := by
  rw [enumsOf, List.mapIdx_eq_zipIdx_map, List.forall₂_map_right_iff]
  exact List.forall₂_same.mpr fun (raw, i) _ =>
    ⟨rfl, qualified_fullNameOf parts raw.name, rfl, commented_commentAt context _⟩

theorem messagesOf_forall₂ {number : Int} {position : ℕ} {raws : List RawMessage}
    {messages : List Message}
    (h : messagesOf context scope path number position raws = .ok messages) :
    List.Forall₂ (fun (raw, i) message =>
        messageOf context scope (path ++ [number, (i : Int)]) raw = .ok message)
      (raws.zipIdx position) messages := by
  induction raws generalizing position messages with
  | nil =>
    cases h
    exact .nil
  | cons raw rest ih =>
    obtain ⟨first, hfirst, h⟩ := Except.bind_eq_ok.mp h
    obtain ⟨others, hothers, h⟩ := Except.bind_eq_ok.mp h
    obtain rfl := Except.pure_eq_ok.mp h
    exact .cons hfirst (ih hothers)

/-- What becomes of a message, before anything is said of its fields. -/
structure Became (context : Context) (scope : String) (path : List Int) (raw : RawMessage)
    (message : Message) : Prop where
  name : message.name = raw.name
  fullName : message.fullName = Text.qualified scope raw.name
  file : message.file = context.path
  nested : messagesOf context message.fullName path nestedOfMessage 0 raw.nested = .ok message.nested
  enums : message.enums = enumsOf context message.fullName path enumsOfMessage raw.enums
  fields : fieldsOf context
    { fullName := message.fullName, path, oneofs := raw.oneofs
      mapEntries := (message.nested.filter (·.mapEntry)).map (·.fullName) } 0 raw.fields =
    .ok (message.fields, message.unsupported)
  mapEntry : message.mapEntry = true ↔ raw.IsMapEntry
  comment : message.comment = context.commentAt path

theorem became_of_messageOf {raw : RawMessage} {message : Message}
    (h : messageOf context scope path raw = .ok message) : Became context scope path raw message := by
  obtain ⟨name, fields, nested, enums, oneofs, options⟩ := raw
  obtain ⟨inner, hinner, h⟩ := Except.bind_eq_ok.mp h
  obtain ⟨⟨supported, unsupported⟩, hfields, h⟩ := Except.bind_eq_ok.mp h
  obtain rfl := Except.pure_eq_ok.mp h
  refine ⟨rfl, rfl, rfl, hinner, rfl, hfields, ?_, rfl⟩
  dsimp only [RawMessage.IsMapEntry]
  split
  · simp_all
  · rename_i hother
    exact ⟨nofun, fun h => absurd h (hother true)⟩

/-- Several messages, each with its own declaration. -/
theorem becameAll_of_messagesOf {number : Int} {raws : List RawMessage} {messages : List Message}
    (h : messagesOf context scope path number 0 raws = .ok messages) :
    List.Forall₂ (fun raw message => ∃ path, Became context scope path raw message) raws messages := by
  have hzip : List.Forall₂ (fun raw message => ∃ path, Became context scope path raw message)
      (raws.zipIdx.map Prod.fst) messages :=
    List.forall₂_map_left_iff.mpr
      ((messagesOf_forall₂ h).imp fun _ _ hmessage => ⟨_, became_of_messageOf hmessage⟩)
  rwa [List.zipIdx_map_fst] at hzip

theorem map_name_of_messagesOf {number : Int} {raws : List RawMessage} {messages : List Message}
    (h : messagesOf context scope path number 0 raws = .ok messages) :
    messages.map (·.name) = raws.map (·.name) := by
  refine List.forall₂_eq_eq_eq ▸ ?_
  rw [List.forall₂_map_left_iff, List.forall₂_map_right_iff]
  exact (becameAll_of_messagesOf h).flip.imp fun _ _ ⟨_, hbecame⟩ => hbecame.name

/-- The map entries among the messages nested in a message. -/
theorem mem_mapEntries_iff {parts : List String} {number : Int} {raws : List RawMessage}
    {messages : List Message}
    (h : messagesOf context (fullNameOf parts) path number 0 raws = .ok messages) (name : String) :
    name ∈ (messages.filter (·.mapEntry)).map (·.fullName) ↔
      ∃ entry ∈ raws, entry.IsMapEntry ∧ name = fullNameOf (parts ++ [entry.name]) := by
  have hall := becameAll_of_messagesOf h
  clear h
  induction hall with
  | nil => simp
  | @cons raw message raws messages hbecame _ ih =>
    obtain ⟨_, hbecame⟩ := hbecame
    have hname := hbecame.fullName.trans (qualified_fullNameOf parts raw.name)
    rw [List.exists_mem_cons_iff, ← hbecame.mapEntry]
    by_cases hentry : message.mapEntry = true
    · rw [List.filter_cons_of_pos hentry, List.map_cons, List.mem_cons, hname]
      exact or_congr (by simp only [hentry, true_and]) ih
    · rw [List.filter_cons_of_neg hentry]
      exact ih.trans (or_iff_right fun h => hentry h.1).symm

/-- A message agrees with its declaration, given the address of the declaration and the parts of the
name of what is around it. -/
theorem messageAgrees_of_messageOf {source : RawFile} {address : List ℕ} {outer : List String}
    {raw : RawMessage} {message : Message} (hlocations : context.locations = source.locations)
    (hpath : context.path = source.name)
    (h : messageOf context (fullNameOf (source.package :: outer)) (sourcePath address) raw =
      .ok message) :
    MessageAgrees source address (outer ++ [raw.name]) raw message := by
  have hbecame := became_of_messageOf h
  have hname : message.fullName = fullNameOf (source.package :: (outer ++ [raw.name])) := by
    rw [hbecame.fullName, qualified_fullNameOf, List.cons_append]
  obtain ⟨hfields, hunsupported⟩ := fieldsOf_split hbecame.fields
  refine ⟨hbecame.name, hname, hbecame.file.trans hpath, ?nested, ?enums, ?fields, hunsupported,
    hbecame.mapEntry, ?comment⟩
  case nested => exact map_name_of_messagesOf hbecame.nested
  case enums =>
    rw [hbecame.enums, hname, ← hlocations]
    exact enumsOf_agrees context _ _ _ _
  case fields =>
    refine hfields.imp ?_
    rintro ⟨field, i⟩ descriptor ⟨kind, hkind, hfield⟩
    rw [← hlocations]
    exact fieldAgrees_of_fieldOf hkind (mem_mapEntries_iff (hname ▸ hbecame.nested)) hfield
  case comment =>
    rw [hbecame.comment, ← hlocations]
    exact commented_commentAt context _

/-! ### Addresses -/

/-- What the declarations of a file have in common. -/
def contextOf (source : RawFile) : Context where
  path := source.name
  locations := source.locations
  proto2 := source.syntaxName.isEmpty || source.syntaxName == "proto2"

/-- A message is converted from the declaration at an address, inside of what has a name with the
parts `outer`. -/
structure ConvertedAt (source : RawFile) (address : List ℕ) (outer : List String) (raw : RawMessage)
    (message : Message) : Prop where
  address_ne_nil : address ≠ []
  eq : messageOf (contextOf source) (fullNameOf (source.package :: outer)) (sourcePath address) raw =
    .ok message

variable {source : RawFile} {file : File} {address : List ℕ} {names outer : List String}
  {raw : RawMessage} {message : Message}

theorem convertedAt_outer {messages : List Message}
    (h : messagesOf (contextOf source) source.package [] messagesOfFile 0 source.messages =
      .ok messages) :
    List.Forall₂ (fun (raw, i) => ConvertedAt source [i] [] raw) source.messages.zipIdx messages := by
  refine (messagesOf_forall₂ h).imp fun _ _ hmessage => ⟨List.cons_ne_nil _ _, ?_⟩
  rwa [fullNameOf_singleton]

theorem ConvertedAt.inner (h : ConvertedAt source address outer raw message) :
    List.Forall₂ (fun (inner, i) => ConvertedAt source (address ++ [i]) (outer ++ [raw.name]) inner)
      raw.nested.zipIdx message.nested := by
  have hbecame := became_of_messageOf h.eq
  have hname : message.fullName = fullNameOf (source.package :: (outer ++ [raw.name])) := by
    rw [hbecame.fullName, qualified_fullNameOf, List.cons_append]
  have hnested := messagesOf_forall₂ hbecame.nested
  rw [hname] at hnested
  refine hnested.imp fun _ _ hmessage => ⟨List.append_ne_nil_of_right_ne_nil _ nofun, ?_⟩
  rwa [sourcePath_append h.address_ne_nil]

/-- What is at a position of one list, and what is at the same position of the other. -/
theorem getElem?_of_forall₂_zipIdx {α β : Type} {r : α × ℕ → β → Prop} {xs : List α} {ys : List β}
    (h : List.Forall₂ r xs.zipIdx ys) (i : ℕ) :
    (∀ x, xs[i]? = some x → ∃ y, ys[i]? = some y ∧ r (x, i) y) ∧
      ∀ y, ys[i]? = some y → ∃ x, xs[i]? = some x ∧ r (x, i) y := by
  obtain ⟨hlength, hget⟩ := List.forall₂_iff_get.mp h
  rw [List.length_zipIdx] at hlength
  have hboth {x y} (hx : xs[i]? = some x) (hy : ys[i]? = some y) : r (x, i) y := by
    obtain ⟨hi, rfl⟩ := List.getElem?_eq_some_iff.mp hx
    obtain ⟨hi', rfl⟩ := List.getElem?_eq_some_iff.mp hy
    simpa using hget i (by simpa using hi) hi'
  constructor
  · intro x hx
    obtain ⟨hi, -⟩ := List.getElem?_eq_some_iff.mp hx
    have hy := List.getElem?_eq_getElem (hlength ▸ hi)
    exact ⟨_, hy, hboth hx hy⟩
  · intro y hy
    obtain ⟨hi, -⟩ := List.getElem?_eq_some_iff.mp hy
    have hx := List.getElem?_eq_getElem (hlength ▸ hi)
    exact ⟨_, hx, hboth hx hy⟩

/-- What is declared at an address is converted there. -/
theorem exists_convertedAt
    (h : List.Forall₂ (fun (raw, i) => ConvertedAt source [i] [] raw) source.messages.zipIdx
      file.messages) (hraw : source.Declares address names raw) :
    ∃ outer message, names = outer ++ [raw.name] ∧ file.Declares address message ∧
      ConvertedAt source address outer raw message := by
  induction hraw with
  | outer hi =>
    obtain ⟨message, hmessage, hconverted⟩ := (getElem?_of_forall₂_zipIdx h _).1 _ hi
    exact ⟨[], message, rfl, .outer hmessage, hconverted⟩
  | inner _ hi ih =>
    obtain ⟨outer, around, rfl, haround, hconverted⟩ := ih
    obtain ⟨message, hmessage, hconverted⟩ :=
      (getElem?_of_forall₂_zipIdx hconverted.inner _).1 _ hi
    exact ⟨_, message, rfl, haround.inner hmessage, hconverted⟩

/-- What is found at an address was declared there. -/
theorem exists_declaration
    (h : List.Forall₂ (fun (raw, i) => ConvertedAt source [i] [] raw) source.messages.zipIdx
      file.messages) (hmessage : file.Declares address message) :
    ∃ outer raw, source.Declares address (outer ++ [raw.name]) raw ∧
      ConvertedAt source address outer raw message := by
  induction hmessage with
  | outer hi =>
    obtain ⟨raw, hraw, hconverted⟩ := (getElem?_of_forall₂_zipIdx h _).2 _ hi
    exact ⟨[], raw, .outer hraw, hconverted⟩
  | inner _ hi ih =>
    obtain ⟨outer, around, haround, hconverted⟩ := ih
    obtain ⟨raw, hraw, hconverted⟩ := (getElem?_of_forall₂_zipIdx hconverted.inner _).2 _ hi
    exact ⟨_, raw, haround.inner hraw, hconverted⟩

/-! ### Files and sets -/

theorem fileAgrees_of_fileOf (h : fileOf source = .ok file) : FileAgrees source file := by
  obtain ⟨messages, hmessages, h⟩ := Except.bind_eq_ok.mp h
  have hfile := Except.pure_eq_ok.mp h
  obtain rfl : file.messages = messages := by rw [← hfile]
  have hconverted := convertedAt_outer hmessages
  refine ⟨by rw [← hfile], by rw [← hfile], map_name_of_messagesOf hmessages, ?enums, ?converted,
    ?origin⟩
  case enums =>
    have henums := enumsOf_agrees (contextOf source) [source.package] [] enumsOfFile source.enums
    rw [fullNameOf_singleton] at henums
    rw [← hfile]
    exact henums
  case converted =>
    intro address names raw hraw
    obtain ⟨outer, message, rfl, hmessage, hat⟩ := exists_convertedAt hconverted hraw
    exact ⟨message, hmessage, messageAgrees_of_messageOf rfl rfl hat.eq⟩
  case origin =>
    intro message hmessage
    obtain ⟨address, hmessage⟩ := File.exists_declares hmessage
    obtain ⟨outer, raw, hraw, hat⟩ := exists_declaration hconverted hmessage
    exact ⟨address, _, raw, hraw, hmessage, messageAgrees_of_messageOf rfl rfl hat.eq⟩

theorem fileAgrees_of_filesOf {sources : List RawFile} {files : List File}
    (h : filesOf sources = .ok files) : List.Forall₂ FileAgrees sources files := by
  induction sources generalizing files with
  | nil =>
    cases h
    exact .nil
  | cons source rest ih =>
    obtain ⟨file, hfile, h⟩ := Except.bind_eq_ok.mp h
    obtain ⟨others, hothers, h⟩ := Except.bind_eq_ok.mp h
    obtain rfl := Except.pure_eq_ok.mp h
    exact .cons (fileAgrees_of_fileOf hfile) (ih hothers)

theorem load_eq_ok_iff {text : String} {set : DescriptorSet} :
    load text = .ok set ↔ ∃ raw, RawSet.ofText text = .ok raw ∧ set.targets = raw.targets ∧
      filesOf (raw.files ++ raw.protoFiles) = .ok set.files := by
  constructor
  · intro h
    obtain ⟨raw, hraw, h⟩ := Except.bind_eq_ok.mp h
    obtain ⟨files, hfiles, h⟩ := Except.bind_eq_ok.mp h
    obtain rfl := Except.pure_eq_ok.mp h
    exact ⟨raw, Except.mapError_eq_ok.mp hraw, rfl, hfiles⟩
  · rintro ⟨raw, hraw, htargets, hfiles⟩
    rw [load, hraw, Except.mapError_ok, Except.ok_bind, hfiles, Except.ok_bind, ← htargets]
    rfl

/-- **Nothing is lost or misplaced.** The files of a loaded set are those of its document in order, and
each agrees with its own, message by message. -/
theorem load_agrees {text : String} {set : DescriptorSet} (h : load text = .ok set) :
    ∃ raw, RawSet.ofText text = .ok raw ∧ set.targets = raw.targets ∧
      List.Forall₂ FileAgrees (raw.files ++ raw.protoFiles) set.files := by
  obtain ⟨raw, hraw, htargets, hfiles⟩ := load_eq_ok_iff.mp h
  exact ⟨raw, hraw, htargets, fileAgrees_of_filesOf hfiles⟩

/-! ### Two documents

A string is taken apart once, before a document is evaluated. -/

theorem scan_ofList (cs : List Char) :
    Json.Token.scan (String.ofList cs) = Json.Token.scanWithin (cs.length + 1) cs [] := by
  rw [Json.Token.scan, String.toList_ofList]

/-- A message with a field without a kind in front of one that has a comment. -/
def commentedBehind : String :=
"\x7b\"file\":[\x7b\"messageType\":[\x7b\"name\":\"M\",\"field\":[\x7b\x7d,\x7b\"type\":9\x7d]\x7d],
\"sourceCodeInfo\":\x7b\"location\":[\x7b\"path\":[4,0,2,1],\"leadingComments\":\"B\"\x7d]\x7d\x7d]\x7d"

/-- The field that is set apart is counted. -/
theorem load_agrees_commentedBehind : ∃ raw set, load commentedBehind = .ok set ∧
    RawSet.ofText commentedBehind = .ok raw ∧
    List.Forall₂ FileAgrees (raw.files ++ raw.protoFiles) set.files ∧
    set.messages.map (fun m => (m.fullName, m.fields.map (·.comment), m.unsupported.map (·.kind))) =
      [("M", ["B"], ["<missing>"])] := by
  obtain ⟨set, hload, hset⟩ : ∃ set, load commentedBehind = .ok set ∧
      decide (set.messages.map (fun m =>
          (m.fullName, m.fields.map (·.comment), m.unsupported.map (·.kind))) =
        [("M", ["B"], ["<missing>"])]) = true := by
    refine Except.exists_of_succeedsWith ?_
    rw [load, RawSet.ofText, Json.Unread.ofText, Json.Reading.ofText, commentedBehind, scan_ofList]
    decide +kernel
  obtain ⟨raw, hraw, -, hfiles⟩ := load_agrees hload
  exact ⟨raw, set, hload, hraw, hfiles, of_decide_eq_true hset⟩

/-- A message that is described twice, the second time without a comment. -/
def describedTwice : String :=
"\x7b\"file\":[\x7b\"messageType\":[\x7b\"name\":\"M\"\x7d],\"sourceCodeInfo\":\x7b\"location\":[
\x7b\"path\":[4,0],\"leadingComments\":\"A\"\x7d,\x7b\"path\":[4,0]\x7d]\x7d\x7d]\x7d"

/-- A description without a comment does not take the comment of an earlier one away. -/
theorem comment_ne_lastComment_describedTwice : ∃ raw set source file message,
    RawSet.ofText describedTwice = .ok raw ∧ load describedTwice = .ok set ∧
    raw.files = [source] ∧ set.files = [file] ∧ file.Declares [0] message ∧
    message.comment = "A" ∧ lastComment source.locations (sourcePath [0]) = "" := by
  obtain ⟨raw, hraw, htest⟩ : ∃ raw, RawSet.ofText describedTwice = .ok raw ∧
      (decide (raw.files.map (fun source => lastComment source.locations (sourcePath [0])) = [""]) &&
        Except.succeedsWith (fun files => files.map (·.messages.map (·.comment)) = [["A"]])
          (filesOf (raw.files ++ raw.protoFiles))) = true := by
    refine Except.exists_of_succeedsWith ?_
    rw [RawSet.ofText, Json.Unread.ofText, Json.Reading.ofText, describedTwice, scan_ofList]
    decide +kernel
  obtain ⟨hsource, hfiles⟩ := (Bool.and_eq_true _ _).mp htest
  obtain ⟨files, hfiles, hcomments⟩ := Except.exists_of_succeedsWith hfiles
  obtain ⟨source, hsource, hlast⟩ := List.map_eq_singleton_iff.mp (of_decide_eq_true hsource)
  obtain ⟨file, rfl, hfile⟩ := List.map_eq_singleton_iff.mp (of_decide_eq_true hcomments)
  obtain ⟨message, hmessage, hcomment⟩ := List.map_eq_singleton_iff.mp hfile
  have hload : load describedTwice = .ok ⟨[file], raw.targets⟩ :=
    load_eq_ok_iff.mpr ⟨raw, hraw, rfl, hfiles⟩
  have hdeclares : file.Declares [0] message := .outer (by rw [hmessage]; rfl)
  exact ⟨raw, _, source, file, message, hraw, hload, hsource, rfl, hdeclares, hcomment, hlast⟩

end MessageSchema.Protojson
