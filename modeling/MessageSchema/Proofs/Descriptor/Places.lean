import MessageSchema.Proofs.Declarations

/-!
# The places where types are declared

A message of a set is addressed by the position of its file and then by a path: its position in the
file, or the path of the message around it and its position there. The place of an enum is the path
of the message around it, empty for an enum of a file, and its position there. Two messages that are
equal in every respect still stand at different places, so that a place says which of several
declarations is meant.

Here the types of a set are listed together with their places, in the order in which lookup goes
through them.

## Main definitions

* `MessagePlace`, `EnumPlace`: places in a set.
* `File.Declares`, `DescriptorSet.Declares`, `DescriptorSet.DeclaresEnum`: what is declared at a
  place.
* `DescriptorSet.messageAt?`, `DescriptorSet.enumAt?`: how a place is followed to what is declared
  there.
* `DescriptorSet.placedMessages`, `DescriptorSet.placedEnums`: all types with their places.

## Main results

* `File.exists_declares`: every message of a file has an address.
* `DescriptorSet.messageAt?_eq_some_iff`, `DescriptorSet.enumAt?_eq_some_iff`: following a place
  leads to what is declared there.
* `DescriptorSet.mem_placedMessages`, `DescriptorSet.mem_placedEnums`: each declaration is listed at
  its place, and nothing else is.
-/

namespace MessageSchema

/-! ### Places -/

/-- The place of a message in a set. -/
structure MessagePlace where
  /-- The position of the file. -/
  file : ℕ
  /-- The position of the outermost message in the file, and so on down to the message itself. -/
  path : List ℕ
deriving DecidableEq, Repr

/-- The place of an enum in a set. -/
structure EnumPlace where
  /-- The position of the file. -/
  file : ℕ
  /-- The path of the message around the enum, empty for an enum of the file. -/
  parent : List ℕ
  /-- The position among the enums declared there. -/
  position : ℕ
deriving DecidableEq, Repr

/-- The message at an address among the descriptors of a file. -/
inductive File.Declares (file : File) : List ℕ → Message → Prop
  | outer {i : ℕ} {message : Message} (h : file.messages[i]? = some message) :
      Declares file [i] message
  | inner {address : List ℕ} {around message : Message} {i : ℕ}
      (haround : Declares file address around) (h : around.nested[i]? = some message) :
      Declares file (address ++ [i]) message

namespace DescriptorSet

/-- A message is declared at a place. -/
def Declares (set : DescriptorSet) (place : MessagePlace) (message : Message) : Prop :=
  ∃ file, set.files[place.file]? = some file ∧ file.Declares place.path message

/-- An enum is declared at a place: by the file, or by the message at the path in front. -/
inductive DeclaresEnum (set : DescriptorSet) : EnumPlace → EnumType → Prop
  | outer {i position : ℕ} {file : File} {e : EnumType} (hfile : set.files[i]? = some file)
      (h : file.enums[position]? = some e) : DeclaresEnum set ⟨i, [], position⟩ e
  | inner {i position : ℕ} {path : List ℕ} {message : Message} {e : EnumType}
      (hmessage : set.Declares ⟨i, path⟩ message) (h : message.enums[position]? = some e) :
      DeclaresEnum set ⟨i, path, position⟩ e

end DescriptorSet

/-- The message at the end of a path that begins inside a message. -/
def Message.inside? (message : Message) (path : List ℕ) : Option Message :=
  path.foldlM (fun around i => around.nested[i]?) message

namespace DescriptorSet

/-- The message at a place. -/
def messageAt? (set : DescriptorSet) (place : MessagePlace) : Option Message :=
  match place.path with
  | [] => none
  | first :: rest => do
    let file ← set.files[place.file]?
    let message ← file.messages[first]?
    message.inside? rest

/-- The enum at a place. -/
def enumAt? (set : DescriptorSet) (place : EnumPlace) : Option EnumType :=
  if place.parent.isEmpty then do
    let file ← set.files[place.file]?
    file.enums[place.position]?
  else do
    let message ← set.messageAt? ⟨place.file, place.parent⟩
    message.enums[place.position]?

end DescriptorSet

/-! ### Following a path -/

namespace Message

theorem inside?_cons (message : Message) (i : ℕ) (rest : List ℕ) :
    message.inside? (i :: rest) = message.nested[i]?.bind (·.inside? rest) := by
  rw [inside?, List.foldlM_cons]
  rfl

theorem inside?_concat (message : Message) (path : List ℕ) (i : ℕ) :
    message.inside? (path ++ [i]) = (message.inside? path).bind (·.nested[i]?) := by
  rw [inside?, List.foldlM_append]
  refine bind_congr fun around => ?_
  simp

end Message

namespace File

variable {file : File} {address path : List ℕ} {message other : Message}

theorem Declares.inside (h : file.Declares address message)
    (hpath : message.inside? path = some other) : file.Declares (address ++ path) other := by
  induction path generalizing address message with
  | nil =>
    obtain rfl : message = other := Option.some.inj hpath
    rwa [List.append_nil]
  | cons i rest ih =>
    rw [Message.inside?_cons, Option.bind_eq_some_iff] at hpath
    obtain ⟨inner, hinner, hrest⟩ := hpath
    rw [List.append_cons]
    exact ih (h.inner hinner) hrest

/-- What a file declares is what a path leads to that begins with a message of the file. -/
theorem declares_iff : file.Declares address message ↔ ∃ first rest outer, address = first :: rest ∧
    file.messages[first]? = some outer ∧ outer.inside? rest = some message := by
  constructor
  · intro h
    induction h with
    | outer h => exact ⟨_, [], _, rfl, h, rfl⟩
    | @inner _ around message i _ h ih =>
      obtain ⟨first, rest, outer, rfl, houter, hrest⟩ := ih
      refine ⟨first, rest ++ [i], outer, rfl, houter, ?_⟩
      rw [Message.inside?_concat, hrest, Option.bind_some, h]
  · rintro ⟨first, rest, outer, rfl, houter, hrest⟩
    exact (Declares.outer houter).inside hrest

/-- Every message of a file has an address. -/
theorem exists_declares {message : Message} (h : message ∈ Message.allWithNested file.messages) :
    ∃ address, file.Declares address message := by
  refine Message.forall_mem_allWithNested (p := fun inner => ∃ address, file.Declares address inner)
    (fun around haround inner hinner => ?_) (fun root hroot => ?_) message h
  · obtain ⟨address, haddress⟩ := haround
    obtain ⟨i, hi⟩ := List.mem_iff_getElem?.mp hinner
    exact ⟨_, haddress.inner hi⟩
  · obtain ⟨i, hi⟩ := List.mem_iff_getElem?.mp hroot
    exact ⟨_, .outer hi⟩

end File

namespace DescriptorSet

variable {set : DescriptorSet} {place : MessagePlace} {enumPlace : EnumPlace} {message : Message}
  {e : EnumType}

/-- Following a place leads to the message that is declared there. -/
theorem messageAt?_eq_some_iff :
    set.messageAt? place = some message ↔ set.Declares place message := by
  obtain ⟨i, path⟩ := place
  simp only [Declares, File.declares_iff]
  cases path with
  | nil => simp [messageAt?]
  | cons first rest => simp [messageAt?, Option.bind_eq_some_iff]

theorem not_declares_nil (i : ℕ) : ¬ set.Declares ⟨i, []⟩ message := by
  rw [← messageAt?_eq_some_iff]
  simp [messageAt?]

theorem DeclaresEnum.exists_file (h : set.DeclaresEnum enumPlace e) :
    ∃ file, set.files[enumPlace.file]? = some file := by
  cases h with
  | outer hfile => exact ⟨_, hfile⟩
  | inner hmessage => exact hmessage.imp fun _ => And.left

/-- Following a place leads to the enum that is declared there. -/
theorem enumAt?_eq_some_iff : set.enumAt? enumPlace = some e ↔ set.DeclaresEnum enumPlace e := by
  obtain ⟨i, parent, position⟩ := enumPlace
  cases parent with
  | nil =>
    simp only [enumAt?, List.isEmpty_nil, if_true, Option.bind_eq_bind, Option.bind_eq_some_iff]
    constructor
    · rintro ⟨file, hfile, h⟩
      exact .outer hfile h
    · intro h
      cases h with
      | outer hfile h => exact ⟨_, hfile, h⟩
      | inner hmessage => exact absurd hmessage (not_declares_nil i)
  | cons first rest =>
    simp only [enumAt?, List.isEmpty_cons, Bool.false_eq_true, if_false, Option.bind_eq_bind,
      Option.bind_eq_some_iff, messageAt?_eq_some_iff]
    constructor
    · rintro ⟨message, hmessage, h⟩
      exact .inner hmessage h
    · intro h
      cases h with
      | inner hmessage h => exact ⟨_, hmessage, h⟩

end DescriptorSet

/-! ### Listing what is declared -/

namespace Message

mutual

/-- A message with its path, behind all messages nested in it with theirs. -/
def placed (path : List ℕ) : Message → List (List ℕ × Message)
  | message@⟨_, _, _, _, nested, _, _, _, _, _, _⟩ => placedFrom path 0 nested ++ [(path, message)]

/-- Several messages at consecutive positions below a path, each behind all that is nested in it. -/
def placedFrom (path : List ℕ) (position : ℕ) : List Message → List (List ℕ × Message)
  | [] => []
  | message :: rest => placed (path ++ [position]) message ++ placedFrom path (position + 1) rest

end

/-- All messages among several ones below a path. -/
def allPlaced (path : List ℕ) (messages : List Message) : List (List ℕ × Message) :=
  placedFrom path 0 messages

theorem placed_eq (path : List ℕ) (message : Message) :
    message.placed path = allPlaced path message.nested ++ [(path, message)] := by
  cases message
  rfl

theorem placedFrom_eq (path : List ℕ) (position : ℕ) (messages : List Message) :
    placedFrom path position messages =
      (messages.zipIdx position).flatMap fun (message, i) => message.placed (path ++ [i]) := by
  induction messages generalizing position with
  | nil => rfl
  | cons message rest ih => rw [placedFrom, ih, List.zipIdx_cons, List.flatMap_cons]

theorem allPlaced_eq (path : List ℕ) (messages : List Message) :
    allPlaced path messages =
      messages.zipIdx.flatMap fun (message, i) => message.placed (path ++ [i]) :=
  placedFrom_eq path 0 messages

theorem mem_allPlaced_iff {path address : List ℕ} {messages : List Message} {other : Message} :
    (address, other) ∈ allPlaced path messages ↔
      ∃ (i : ℕ) (message : Message),
        messages[i]? = some message ∧ (address, other) ∈ message.placed (path ++ [i]) := by
  simp only [allPlaced_eq, List.mem_flatMap, Prod.exists, List.mem_zipIdx_iff_getElem?]
  exact exists_comm

/-- Listed are the messages that a path leads to, at the end of that path. -/
theorem mem_placed_iff {path address : List ℕ} {message other : Message} :
    (address, other) ∈ message.placed path ↔
      ∃ rest, address = path ++ rest ∧ message.inside? rest = some other := by
  induction message using nested_induction generalizing path address with
  | h message ih =>
    rw [placed_eq, List.mem_append, List.mem_singleton, mem_allPlaced_iff, Prod.mk.injEq]
    constructor
    · rintro (⟨i, inner, hinner, h⟩ | ⟨rfl, rfl⟩)
      · obtain ⟨rest, rfl, hrest⟩ := (ih inner (List.mem_of_getElem? hinner)).mp h
        refine ⟨i :: rest, by simp, ?_⟩
        rw [inside?_cons, hinner, Option.bind_some, hrest]
      · exact ⟨[], by simp, rfl⟩
    · rintro ⟨rest, rfl, h⟩
      cases rest with
      | nil =>
        obtain rfl : message = other := Option.some.inj h
        exact .inr ⟨by simp, rfl⟩
      | cons i rest =>
        rw [inside?_cons, Option.bind_eq_some_iff] at h
        obtain ⟨inner, hinner, h⟩ := h
        refine .inl ⟨i, inner, hinner, ?_⟩
        exact (ih inner (List.mem_of_getElem? hinner)).mpr ⟨rest, by simp, h⟩

theorem map_snd_allPlaced_of_forall (path : List ℕ) {messages : List Message}
    (h : ∀ message ∈ messages, ∀ path, (message.placed path).map Prod.snd = message.withNested) :
    (allPlaced path messages).map Prod.snd = allWithNested messages := by
  rw [allPlaced_eq, List.map_flatMap, allWithNested_eq_flatMap]
  conv_rhs => rw [← List.zipIdx_map_fst 0 messages, List.flatMap_map]
  exact List.flatMap_congr fun x hx => h x.1 (List.fst_mem_of_mem_zipIdx hx) _

theorem map_snd_placed (path : List ℕ) (message : Message) :
    (message.placed path).map Prod.snd = message.withNested := by
  induction message using nested_induction generalizing path with
  | h message ih =>
    rw [placed_eq, List.map_append, withNested_eq,
      map_snd_allPlaced_of_forall path fun inner hinner path => ih inner hinner path]
    rfl

/-- Without their paths the listed messages are all messages, in the order of lookup. -/
theorem map_snd_allPlaced (path : List ℕ) (messages : List Message) :
    (allPlaced path messages).map Prod.snd = allWithNested messages :=
  map_snd_allPlaced_of_forall path fun message _ path => map_snd_placed path message

end Message

/-- Messages of the file at a position, with their places. -/
def messagesIn (i : ℕ) (placed : List (List ℕ × Message)) : List (MessagePlace × Message) :=
  placed.map fun (path, message) => (⟨i, path⟩, message)

/-- Enums at one place of a file, the last one first. -/
def enumsAt (i : ℕ) (path : List ℕ) (enums : List EnumType) : List (EnumPlace × EnumType) :=
  (enums.zipIdx.map fun (e, position) => (⟨i, path, position⟩, e)).reverse

/-- The enums of messages of the file at a position, with their places. -/
def enumsIn (i : ℕ) (placed : List (List ℕ × Message)) : List (EnumPlace × EnumType) :=
  placed.flatMap fun (path, message) => enumsAt i path message.enums

namespace DescriptorSet

/-- All messages with their places; the first of a name is the one that counts. -/
def placedMessages (set : DescriptorSet) : List (MessagePlace × Message) :=
  set.files.zipIdx.reverse.flatMap fun (file, i) =>
    messagesIn i (Message.allPlaced [] file.messages)

/-- All enums with their places; the first of a name is the one that counts. -/
def placedEnums (set : DescriptorSet) : List (EnumPlace × EnumType) :=
  set.files.zipIdx.reverse.flatMap fun (file, i) =>
    enumsIn i (Message.allPlaced [] file.messages) ++ enumsAt i [] file.enums

/-- The package of the file at a position, empty where there is none. -/
def packageAt (set : DescriptorSet) (i : ℕ) : String :=
  (set.files[i]?.map (·.package)).getD ""

variable {set : DescriptorSet} {place : MessagePlace} {enumPlace : EnumPlace} {message : Message}
  {e : EnumType}

theorem mem_allPlaced {file : File} {path : List ℕ} :
    (path, message) ∈ Message.allPlaced [] file.messages ↔ file.Declares path message := by
  simp only [Message.mem_allPlaced_iff, Message.mem_placed_iff, File.declares_iff]
  constructor
  · rintro ⟨first, outer, houter, rest, rfl, hrest⟩
    exact ⟨first, rest, outer, rfl, houter, hrest⟩
  · rintro ⟨first, rest, outer, rfl, houter, hrest⟩
    exact ⟨first, outer, houter, rest, rfl, hrest⟩

/-- Each message is listed at the place where it is declared, and at no other. -/
theorem mem_placedMessages :
    (place, message) ∈ set.placedMessages ↔ set.Declares place message := by
  obtain ⟨i, path⟩ := place
  simp only [placedMessages, messagesIn, List.mem_flatMap, List.mem_reverse, Prod.exists,
    List.mem_zipIdx_iff_getElem?, List.mem_map, mem_allPlaced, Prod.mk.injEq, MessagePlace.mk.injEq]
  constructor
  · rintro ⟨file, _, hfile, _, _, hdeclares, ⟨rfl, rfl⟩, rfl⟩
    exact ⟨file, hfile, hdeclares⟩
  · rintro ⟨file, hfile, hdeclares⟩
    exact ⟨file, i, hfile, path, message, hdeclares, ⟨rfl, rfl⟩, rfl⟩

theorem mem_enumsAt {i : ℕ} {path : List ℕ} {enums : List EnumType} :
    (enumPlace, e) ∈ enumsAt i path enums ↔
      enumPlace.file = i ∧ enumPlace.parent = path ∧ enums[enumPlace.position]? = some e := by
  obtain ⟨j, parent, position⟩ := enumPlace
  simp only [enumsAt, List.mem_reverse, List.mem_map, Prod.exists, List.mem_zipIdx_iff_getElem?,
    Prod.mk.injEq, EnumPlace.mk.injEq]
  constructor
  · rintro ⟨_, _, h, ⟨rfl, rfl, rfl⟩, rfl⟩
    exact ⟨rfl, rfl, h⟩
  · rintro ⟨rfl, rfl, h⟩
    exact ⟨e, position, h, ⟨rfl, rfl, rfl⟩, rfl⟩

/-- Each enum is listed at the place where it is declared, and at no other. -/
theorem mem_placedEnums : (enumPlace, e) ∈ set.placedEnums ↔ set.DeclaresEnum enumPlace e := by
  simp only [placedEnums, enumsIn, List.mem_flatMap, List.mem_reverse, Prod.exists,
    List.mem_zipIdx_iff_getElem?, List.mem_append, mem_allPlaced, mem_enumsAt]
  obtain ⟨i, parent, position⟩ := enumPlace
  constructor
  · rintro ⟨file, _, hfile, ⟨_, message, hmessage, rfl, rfl, h⟩ | ⟨rfl, rfl, h⟩⟩
    · exact .inner ⟨file, hfile, hmessage⟩ h
    · exact .outer hfile h
  · intro h
    cases h with
    | outer hfile h => exact ⟨_, i, hfile, .inr ⟨rfl, rfl, h⟩⟩
    | inner hmessage h =>
      obtain ⟨file, hfile, hmessage⟩ := hmessage
      exact ⟨file, i, hfile, .inl ⟨parent, _, hmessage, rfl, rfl, h⟩⟩

/-- Listed with their places, the files of a set come in the same order. -/
theorem flatMap_reverse_files {α : Type} (f : File → List α) :
    set.files.reverse.flatMap f = set.files.zipIdx.reverse.flatMap fun (file, _) => f file := by
  conv_lhs => rw [← List.zipIdx_map_fst 0 set.files, ← List.map_reverse, List.flatMap_map]

theorem packageAt_eq {file : File} {i : ℕ} (h : set.files[i]? = some file) :
    set.packageAt i = file.package := by
  rw [packageAt, h]
  rfl

theorem map_messagesIn (i : ℕ) (placed : List (List ℕ × Message)) :
    (messagesIn i placed).map (fun x => (x.2, set.packageAt x.1.file)) =
      (placed.map Prod.snd).map (·, set.packageAt i) := by
  simp [messagesIn]

theorem map_enumsAt (i : ℕ) (path : List ℕ) (enums : List EnumType) :
    (enumsAt i path enums).map (fun x => (x.2, set.packageAt x.1.file)) =
      enums.reverse.map (·, set.packageAt i) := by
  have henums : enums.reverse = (enums.zipIdx.map Prod.fst).reverse := by
    rw [List.zipIdx_map_fst]
  rw [henums, enumsAt, ← List.map_reverse, ← List.map_reverse, List.map_map, List.map_map]
  rfl

theorem map_enumsIn (i : ℕ) (placed : List (List ℕ × Message)) :
    (enumsIn i placed).map (fun x => (x.2, set.packageAt x.1.file)) =
      ((placed.map Prod.snd).flatMap (·.enums.reverse)).map (·, set.packageAt i) := by
  simp only [enumsIn, List.map_flatMap, List.flatMap_map, map_enumsAt]

/-- The messages that lookup goes through, with their packages, are those that are listed with their
places. -/
theorem messageIndex_eq :
    set.messageIndex = set.placedMessages.map fun x => (x.2, set.packageAt x.1.file) := by
  rw [messageIndex, flatMap_reverse_files, placedMessages, List.map_flatMap]
  refine List.flatMap_congr fun x hmem => ?_
  obtain ⟨file, i⟩ := x
  have hfile := List.mem_zipIdx_iff_getElem?.mp (List.mem_reverse.mp hmem)
  simp only [map_messagesIn, Message.map_snd_allPlaced, packageAt_eq hfile]

/-- The enums that lookup goes through, with their packages, are those that are listed with their
places. -/
theorem enumIndex_eq :
    set.enumIndex = set.placedEnums.map fun x => (x.2, set.packageAt x.1.file) := by
  rw [enumIndex, flatMap_reverse_files, placedEnums, List.map_flatMap]
  refine List.flatMap_congr fun x hmem => ?_
  obtain ⟨file, i⟩ := x
  have hfile := List.mem_zipIdx_iff_getElem?.mp (List.mem_reverse.mp hmem)
  simp only [List.map_append, map_enumsIn, map_enumsAt, Message.map_snd_allPlaced,
    packageAt_eq hfile]

end DescriptorSet

end MessageSchema
