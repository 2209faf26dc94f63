import MessageSchema.Proofs.Descriptor.Places
import MessageSchema.Proofs.Dictionary

/-!
# The index of a set

Lookup goes through a list of all declarations. An index does the same with two dictionaries from
names to places, which are filled in one pass over the files: what is nested is kept on a stack, and
the message on top of it is recorded and gives way to the messages nested in it. What is recorded
later replaces what was recorded under the same name before.

The invariant of the pass is that a dictionary gives the place of the first declaration of a name in
a list. The list grows at its front with every step, and so a stack stands for what will be listed
from its bottom up. At the end it is the list of all declarations with their places.

## Main definitions

* `Index`: places by full name.
* `Index.visit`, `Index.addFile`, `DescriptorSet.index`: the pass that fills an index.
* `DescriptorSet.messagePlace?`, `DescriptorSet.enumPlace?`: the place that the index gives for a
  name.
* `Index.Finds`: the invariant.

## Main results

* `Index.Finds.visit`: what a stack of messages adds to an index.
* `DescriptorSet.message?_eq`, `DescriptorSet.enumeration?_eq`, `DescriptorSet.packageOf?_eq`:
  lookup through the index is lookup.
* `DescriptorSet.index_finds_declared`: what is found has the name that was asked for, and whatever
  is declared once is found where it is declared.
-/

namespace MessageSchema

universe u v

/-! ### Filling an index -/

/-- Places of messages and enums by full name. -/
structure Index where
  messages : Dictionary MessagePlace
  enums : Dictionary EnumPlace

/-- Messages below a path, each with its own path, the last one on top. -/
def stacked (path : List ℕ) (messages : List Message) : List (List ℕ × Message) :=
  (messages.zipIdx.map fun (message, i) => (path ++ [i], message)).reverse

theorem map_snd_stacked (path : List ℕ) (messages : List Message) :
    (stacked path messages).map Prod.snd = messages.reverse := by
  rw [stacked, List.map_reverse, List.map_map]
  exact congrArg List.reverse (List.zipIdx_map_fst 0 messages)

namespace Index

/-- Nothing is recorded. -/
def empty : Index := ⟨[], []⟩

/-- The index with the enums of one place of the file at a position. -/
def addEnums (index : Index) (i : ℕ) (path : List ℕ) (enums : List EnumType) : Index :=
  { index with
    enums := enums.zipIdx.foldl
      (fun entries (e, position) => Dictionary.insert e.fullName ⟨i, path, position⟩ entries)
      index.enums }

/-- The index with a message of the file at a position and with the enums of the message. -/
def addMessage (index : Index) (i : ℕ) (path : List ℕ) (message : Message) : Index :=
  let index := index.addEnums i path message.enums
  { index with messages := Dictionary.insert message.fullName ⟨i, path⟩ index.messages }

/-- A message on top of a stack stands for one message more than those nested in it, which take its
place. -/
theorem length_visit (path : List ℕ) (message : Message) (stack : List (List ℕ × Message)) :
    (Message.allWithNested ((stacked path message.nested ++ stack).map Prod.snd)).length + 1 =
      (Message.allWithNested (((path, message) :: stack).map Prod.snd)).length := by
  have hperm : (message.nested.reverse.flatMap Message.withNested).length =
      (message.nested.flatMap Message.withNested).length :=
    ((List.reverse_perm _).flatMap_right _).length_eq
  simp only [List.map_append, map_snd_stacked, List.map_cons, Message.allWithNested_eq_flatMap,
    List.flatMap_append, List.flatMap_cons, Message.withNested_eq, List.length_append,
    List.length_singleton, hperm]
  omega

/-- The index with everything on a stack of messages of the file at a position. -/
def visit (i : ℕ) : List (List ℕ × Message) → Index → Index
  | [], index => index
  | (path, message) :: stack, index =>
    visit i (stacked path message.nested ++ stack) (index.addMessage i path message)
termination_by stack => (Message.allWithNested (stack.map Prod.snd)).length
decreasing_by
  rw [← length_visit]
  exact Nat.lt_succ_self _

/-- The index with everything that the file at a position declares. -/
def addFile (index : Index) (i : ℕ) (file : File) : Index :=
  visit i (stacked [] file.messages) (index.addEnums i [] file.enums)

end Index

namespace DescriptorSet

/-- The index of a set. -/
def index (set : DescriptorSet) : Index :=
  set.files.zipIdx.foldl (fun index (file, i) => index.addFile i file) .empty

/-- The place of the message with a full name, which may be written with a dot in front. -/
def messagePlace? (set : DescriptorSet) (name : String) : Option MessagePlace :=
  Dictionary.get? (Text.withoutDot name) set.index.messages

/-- The place of the enum with a full name, which may be written with a dot in front. -/
def enumPlace? (set : DescriptorSet) (name : String) : Option EnumPlace :=
  Dictionary.get? (Text.withoutDot name) set.index.enums

end DescriptorSet

/-! ### What an index gives -/

/-- A dictionary gives what stands first in a list among the items of a name. -/
def Dictionary.FindsFirst {α : Type u} {β : Type v} (nameOf : β → String) (entries : Dictionary α)
    (items : List (α × β)) : Prop :=
  ∀ name, Dictionary.get? name entries = (items.find? (nameOf ·.2 = name)).map Prod.fst

namespace Dictionary.FindsFirst

variable {α : Type u} {β : Type v} {nameOf : β → String} {entries : Dictionary α}
  {items : List (α × β)}

theorem insert (h : FindsFirst nameOf entries items) (item : α × β) :
    FindsFirst nameOf (Dictionary.insert (nameOf item.2) item.1 entries) (item :: items) := by
  intro name
  rw [get?_insert, List.find?_cons]
  by_cases hname : name = nameOf item.2
  · simp [hname]
  · simp [hname, Ne.symm hname, h name]

/-- Several items are put in front one by one. -/
theorem foldl_insert (h : FindsFirst nameOf entries items) (new : List (α × β)) :
    FindsFirst nameOf
      (new.foldl (fun entries item => Dictionary.insert (nameOf item.2) item.1 entries) entries)
      (new.reverse ++ items) := by
  induction new generalizing entries items with
  | nil => exact h
  | cons item rest ih =>
    rw [List.foldl_cons, List.reverse_cons, List.append_assoc]
    exact ih (h.insert item)

/-- What a dictionary gives stands in the list, for an item of the name. -/
theorem exists_mem (h : FindsFirst nameOf entries items) {name : String} {a : α}
    (hget : Dictionary.get? name entries = some a) : ∃ b, (a, b) ∈ items ∧ nameOf b = name := by
  rw [h name, Option.map_eq_some_iff] at hget
  obtain ⟨⟨_, b⟩, hfound, rfl⟩ := hget
  exact ⟨b, List.mem_of_find?_eq_some hfound, by simpa using List.find?_some hfound⟩

/-- What stands in the list for all items of a name is what a dictionary gives. -/
theorem get?_of_only (h : FindsFirst nameOf entries items) {a : α} {b : β} (hmem : (a, b) ∈ items)
    (honly : ∀ x ∈ items, nameOf x.2 = nameOf b → x.1 = a) :
    Dictionary.get? (nameOf b) entries = some a := by
  cases hget : Dictionary.get? (nameOf b) entries with
  | none =>
    rw [h (nameOf b), Option.map_eq_none_iff, List.find?_eq_none] at hget
    exact absurd (decide_eq_true rfl) (hget (a, b) hmem)
  | some other =>
    obtain ⟨found, hfound, hname⟩ := h.exists_mem hget
    exact congrArg some (honly (other, found) hfound hname)

/-- Where each item can be recovered from what stands for it, the first item of a name is recovered
from what a dictionary gives. -/
theorem map_snd_find? (h : FindsFirst nameOf entries items) {at? : α → Option β}
    (hat : ∀ a b, (a, b) ∈ items → at? a = some b) (name : String) :
    (items.find? (nameOf ·.2 = name)).map Prod.snd = (Dictionary.get? name entries).bind at? := by
  rw [h name]
  cases hfound : items.find? (nameOf ·.2 = name) with
  | none => rfl
  | some item => exact (hat item.1 item.2 (List.mem_of_find?_eq_some hfound)).symm

end Dictionary.FindsFirst

namespace Index

/-- An index gives the places that stand first in two lists of declarations. -/
structure Finds (index : Index) (messages : List (MessagePlace × Message))
    (enums : List (EnumPlace × EnumType)) : Prop where
  message : Dictionary.FindsFirst Message.fullName index.messages messages
  enum : Dictionary.FindsFirst EnumType.fullName index.enums enums

/-- What a stack stands for, from its bottom up. -/
def pending (stack : List (List ℕ × Message)) : List (List ℕ × Message) :=
  stack.reverse.flatMap fun (path, message) => message.placed path

theorem pending_append (upper lower : List (List ℕ × Message)) :
    pending (upper ++ lower) = pending lower ++ pending upper := by
  simp [pending]

theorem pending_stacked (path : List ℕ) (messages : List Message) :
    pending (stacked path messages) = Message.allPlaced path messages := by
  rw [pending, stacked, List.reverse_reverse, List.flatMap_map, Message.allPlaced_eq]

/-- The message on top stands for itself behind all messages that take its place. -/
theorem pending_cons (path : List ℕ) (message : Message) (stack : List (List ℕ × Message)) :
    pending ((path, message) :: stack) =
      pending (stacked path message.nested ++ stack) ++ [(path, message)] := by
  rw [pending_append, pending_stacked, List.append_assoc, ← Message.placed_eq]
  simp [pending]

variable {index : Index} {messages : List (MessagePlace × Message)}
  {enums : List (EnumPlace × EnumType)}

namespace Finds

theorem addEnums (h : index.Finds messages enums) (i : ℕ) (path : List ℕ) (more : List EnumType) :
    (index.addEnums i path more).Finds messages (enumsAt i path more ++ enums) where
  message := h.message
  enum := by
    have henum := h.enum.foldl_insert
      (more.zipIdx.map fun (e, position) => (⟨i, path, position⟩, e))
    rwa [List.foldl_map] at henum

theorem addMessage (h : index.Finds messages enums) (i : ℕ) (path : List ℕ) (message : Message) :
    (index.addMessage i path message).Finds ((⟨i, path⟩, message) :: messages)
      (enumsAt i path message.enums ++ enums) where
  message := h.message.insert (⟨i, path⟩, message)
  enum := (h.addEnums i path message.enums).enum

/-- A stack adds what it stands for. -/
theorem visit (h : index.Finds messages enums) (i : ℕ) (stack : List (List ℕ × Message)) :
    (visit i stack index).Finds (messagesIn i (pending stack) ++ messages)
      (enumsIn i (pending stack) ++ enums) := by
  induction stack, index using visit.induct i generalizing messages enums with
  | case1 index => simpa [Index.visit, pending, messagesIn, enumsIn] using h
  | case2 path message stack index ih =>
    have hnext := ih (h.addMessage i path message)
    rw [Index.visit, pending_cons]
    simpa [messagesIn, enumsIn] using hnext

theorem addFile (h : index.Finds messages enums) (i : ℕ) (file : File) :
    (index.addFile i file).Finds (messagesIn i (Message.allPlaced [] file.messages) ++ messages)
      (enumsIn i (Message.allPlaced [] file.messages) ++ (enumsAt i [] file.enums ++ enums)) := by
  have hfile := (h.addEnums i [] file.enums).visit i (stacked [] file.messages)
  rwa [pending_stacked] at hfile

end Finds

/-- Files in front of which others have been recorded are listed before them. -/
theorem Finds.foldl_addFile (h : index.Finds messages enums) (files : List (File × ℕ)) :
    (files.foldl (fun index (file, i) => index.addFile i file) index).Finds
      (files.reverse.flatMap (fun (file, i) =>
        messagesIn i (Message.allPlaced [] file.messages)) ++ messages)
      (files.reverse.flatMap (fun (file, i) =>
        enumsIn i (Message.allPlaced [] file.messages) ++ enumsAt i [] file.enums) ++ enums) := by
  induction files generalizing index messages enums with
  | nil => exact h
  | cons first rest ih =>
    obtain ⟨file, i⟩ := first
    simpa [List.flatMap_append] using ih (h.addFile i file)

theorem finds_empty : empty.Finds [] [] :=
  ⟨fun _ => rfl, fun _ => rfl⟩

end Index

namespace DescriptorSet

variable {set : DescriptorSet} {name : String} {place : MessagePlace} {enumPlace : EnumPlace}
  {message : Message} {e : EnumType}

/-- The index of a set gives the places of the declarations that count. -/
theorem finds_index (set : DescriptorSet) : set.index.Finds set.placedMessages set.placedEnums := by
  simpa [index, placedMessages, placedEnums] using
    Index.finds_empty.foldl_addFile set.files.zipIdx

/-! ### Lookup through the index -/

/-- The index gives a place at which a message of the name is declared. -/
theorem exists_declares_of_messagePlace? (h : set.messagePlace? name = some place) :
    ∃ message, set.Declares place message ∧ message.fullName = Text.withoutDot name := by
  obtain ⟨message, hmem, hname⟩ := (finds_index set).message.exists_mem h
  exact ⟨message, mem_placedMessages.mp hmem, hname⟩

/-- The index gives a place at which an enum of the name is declared. -/
theorem exists_declares_of_enumPlace? (h : set.enumPlace? name = some enumPlace) :
    ∃ e, set.DeclaresEnum enumPlace e ∧ e.fullName = Text.withoutDot name := by
  obtain ⟨e, hmem, hname⟩ := (finds_index set).enum.exists_mem h
  exact ⟨e, mem_placedEnums.mp hmem, hname⟩

/-- A message is found by following the place that the index gives. -/
theorem message?_eq : set.message? name = (set.messagePlace? name).bind set.messageAt? := by
  rw [message?, messages, messageIndex_eq, List.map_map, List.find?_map]
  exact (finds_index set).message.map_snd_find?
    (fun _ _ hmem => messageAt?_eq_some_iff.mpr (mem_placedMessages.mp hmem)) _

/-- An enum is found by following the place that the index gives. -/
theorem enumeration?_eq : set.enumeration? name = (set.enumPlace? name).bind set.enumAt? := by
  rw [enumeration?, enumIndex_eq, List.map_map, List.find?_map]
  exact (finds_index set).enum.map_snd_find?
    (fun _ _ hmem => enumAt?_eq_some_iff.mpr (mem_placedEnums.mp hmem)) _

theorem packageOf?_eq_or : set.packageOf? name =
    ((set.messagePlace? name).map fun place => set.packageAt place.file).or
      ((set.enumPlace? name).map fun place => set.packageAt place.file) := by
  rw [packageOf?, messageIndex_eq, enumIndex_eq, List.find?_map, List.find?_map, messagePlace?,
    enumPlace?, (finds_index set).message, (finds_index set).enum]
  simp only [Option.map_map]
  rfl

/-- The package of a name is that of the file in which the index finds a message, or an enum. -/
theorem packageOf?_eq : set.packageOf? name =
    (((set.messagePlace? name).map (·.file)).or ((set.enumPlace? name).map (·.file))).bind
      fun i => set.files[i]?.map (·.package) := by
  rw [packageOf?_eq_or]
  cases hmessage : set.messagePlace? name with
  | some place =>
    obtain ⟨_, ⟨file, hfile, -⟩, -⟩ := exists_declares_of_messagePlace? hmessage
    simp [packageAt_eq hfile, hfile]
  | none =>
    cases henum : set.enumPlace? name with
    | some place =>
      obtain ⟨_, hdeclares, -⟩ := exists_declares_of_enumPlace? henum
      obtain ⟨file, hfile⟩ := hdeclares.exists_file
      simp [packageAt_eq hfile, hfile]
    | none => rfl

/-! ### What the index finds -/

/-- All messages with a full name are declared at one place. -/
def OnlyMessageAt (set : DescriptorSet) (place : MessagePlace) (fullName : String) : Prop :=
  ∀ other message, set.Declares other message → message.fullName = fullName → other = place

/-- All enums with a full name are declared at one place. -/
def OnlyEnumAt (set : DescriptorSet) (place : EnumPlace) (fullName : String) : Prop :=
  ∀ other e, set.DeclaresEnum other e → e.fullName = fullName → other = place

/-- No message has a full name. -/
def NamesNoMessage (set : DescriptorSet) (fullName : String) : Prop :=
  ∀ place message, set.Declares place message → message.fullName ≠ fullName

instance (set : DescriptorSet) (place : MessagePlace) (fullName : String) :
    Decidable (set.OnlyMessageAt place fullName) :=
  decidable_of_iff (∀ x ∈ set.placedMessages, x.2.fullName = fullName → x.1 = place) <| by
    simp only [OnlyMessageAt, Prod.forall, mem_placedMessages]

instance (set : DescriptorSet) (place : EnumPlace) (fullName : String) :
    Decidable (set.OnlyEnumAt place fullName) :=
  decidable_of_iff (∀ x ∈ set.placedEnums, x.2.fullName = fullName → x.1 = place) <| by
    simp only [OnlyEnumAt, Prod.forall, mem_placedEnums]

instance (set : DescriptorSet) (fullName : String) : Decidable (set.NamesNoMessage fullName) :=
  decidable_of_iff (∀ x ∈ set.placedMessages, x.2.fullName ≠ fullName) <| by
    simp only [NamesNoMessage, Prod.forall, mem_placedMessages]

/-- A message that is declared once is found at its place. -/
theorem messagePlace?_eq_of_only (h : set.Declares place message)
    (honly : set.OnlyMessageAt place message.fullName)
    (hname : Text.withoutDot name = message.fullName) : set.messagePlace? name = some place := by
  rw [messagePlace?, hname]
  exact (finds_index set).message.get?_of_only (mem_placedMessages.mpr h)
    fun x hmem => honly x.1 x.2 (mem_placedMessages.mp hmem)

/-- An enum that is declared once is found at its place. -/
theorem enumPlace?_eq_of_only (h : set.DeclaresEnum enumPlace e)
    (honly : set.OnlyEnumAt enumPlace e.fullName) (hname : Text.withoutDot name = e.fullName) :
    set.enumPlace? name = some enumPlace := by
  rw [enumPlace?, hname]
  exact (finds_index set).enum.get?_of_only (mem_placedEnums.mpr h)
    fun x hmem => honly x.1 x.2 (mem_placedEnums.mp hmem)

/-- A full name that does not begin with a dot is what is left of it with and without a dot in
front. -/
theorem withoutDot_of_spelling {fullName : String} (hdot : ¬ Text.BeginsWithDot fullName)
    (hname : name ∈ [fullName, "." ++ fullName]) : Text.withoutDot name = fullName := by
  rcases List.mem_pair.mp hname with rfl | rfl
  · exact Text.withoutDot_of_no_dot hdot
  · exact Text.withoutDot_dot fullName

/-- **The index finds exactly what is declared.** Whatever a lookup gives has the name that was
asked for, less a dot in front, and is declared at the place in the index. And a message or enum at
any depth whose full name does not begin with a dot and is not declared at another place is itself
what lookup gives, with the package of its file. An enum has to share its name with no message for
that, because the package of a name is looked up among the messages first. -/
theorem index_finds_declared (set : DescriptorSet) :
    (∀ name message, set.message? name = some message → message.fullName = Text.withoutDot name ∧
      ∃ place, set.messagePlace? name = some place ∧ set.Declares place message) ∧
    (∀ name e, set.enumeration? name = some e → e.fullName = Text.withoutDot name ∧
      ∃ place, set.enumPlace? name = some place ∧ set.DeclaresEnum place e) ∧
    (∀ place message, set.Declares place message → ¬ Text.BeginsWithDot message.fullName →
      set.OnlyMessageAt place message.fullName →
      ∀ name ∈ [message.fullName, "." ++ message.fullName],
        set.messagePlace? name = some place ∧ set.message? name = some message ∧
        ∃ file, set.files[place.file]? = some file ∧ set.packageOf? name = some file.package) ∧
    ∀ place e, set.DeclaresEnum place e → ¬ Text.BeginsWithDot e.fullName →
      set.OnlyEnumAt place e.fullName →
      ∀ name ∈ [e.fullName, "." ++ e.fullName],
        set.enumPlace? name = some place ∧ set.enumeration? name = some e ∧
        (set.NamesNoMessage e.fullName →
          ∃ file, set.files[place.file]? = some file ∧
            set.packageOf? name = some file.package) := by
  refine ⟨fun name message h => ?_, fun name e h => ?_,
    fun place message h hdot honly name hname => ?_, fun place e h hdot honly name hname => ?_⟩
  · rw [message?_eq, Option.bind_eq_some_iff] at h
    obtain ⟨place, hplace, hat⟩ := h
    obtain ⟨found, hdeclares, hfull⟩ := exists_declares_of_messagePlace? hplace
    obtain rfl : found = message :=
      Option.some.inj ((messageAt?_eq_some_iff.mpr hdeclares).symm.trans hat)
    exact ⟨hfull, place, hplace, hdeclares⟩
  · rw [enumeration?_eq, Option.bind_eq_some_iff] at h
    obtain ⟨place, hplace, hat⟩ := h
    obtain ⟨found, hdeclares, hfull⟩ := exists_declares_of_enumPlace? hplace
    obtain rfl : found = e := Option.some.inj ((enumAt?_eq_some_iff.mpr hdeclares).symm.trans hat)
    exact ⟨hfull, place, hplace, hdeclares⟩
  · have hplace := messagePlace?_eq_of_only h honly (withoutDot_of_spelling hdot hname)
    refine ⟨hplace, by rw [message?_eq, hplace, Option.bind_some, messageAt?_eq_some_iff.mpr h], ?_⟩
    obtain ⟨file, hfile, -⟩ := h
    exact ⟨file, hfile, by rw [packageOf?_eq, hplace]; simp [hfile]⟩
  · have hbare := withoutDot_of_spelling hdot hname
    have hplace := enumPlace?_eq_of_only h honly hbare
    refine ⟨hplace, by rw [enumeration?_eq, hplace, Option.bind_some, enumAt?_eq_some_iff.mpr h],
      fun hshared => ?_⟩
    have hmessage : set.messagePlace? name = none := by
      refine Option.eq_none_iff_forall_ne_some.mpr fun other hother => ?_
      obtain ⟨found, hfound, hfull⟩ := exists_declares_of_messagePlace? hother
      exact hshared other found hfound (hfull.trans hbare)
    obtain ⟨file, hfile⟩ := h.exists_file
    exact ⟨file, hfile, by rw [packageOf?_eq, hmessage, hplace]; simp [hfile]⟩

/-- A chapter of a book, with an enum of its own. -/
def chapter : Message where
  name := "Chapter"
  fullName := "lib.Book.Chapter"
  file := "lib.proto"
  enums := [{ name := "Side", fullName := "lib.Book.Chapter.Side", values := [⟨"LEFT", 0⟩] }]

/-- Books, declared in the second of two files. -/
def library : DescriptorSet where
  files := [
    { path := "shop.proto", package := "shop",
      messages := [{ name := "Line", fullName := "shop.Line", file := "shop.proto" }] },
    { path := "lib.proto", package := "lib",
      messages := [
        { name := "Book", fullName := "lib.Book", file := "lib.proto",
          nested := [
            { name := "Cover", fullName := "lib.Book.Cover", file := "lib.proto" },
            chapter] }] }]
  targets := []

/-- A chapter and the sides of its pages are found in the second file, inside a book and inside the
chapter. -/
theorem index_finds_declared_library :
    library.Declares ⟨1, [0, 1]⟩ chapter ∧ ¬ Text.BeginsWithDot chapter.fullName ∧
      library.OnlyMessageAt ⟨1, [0, 1]⟩ chapter.fullName ∧
      library.NamesNoMessage "lib.Book.Chapter.Side" ∧
      library.messagePlace? ".lib.Book.Chapter" = some ⟨1, [0, 1]⟩ ∧
      library.message? ".lib.Book.Chapter" = some chapter ∧
      library.enumPlace? "lib.Book.Chapter.Side" = some ⟨1, [0, 1], 0⟩ ∧
      library.packageOf? "lib.Book.Chapter.Side" = some "lib" := by
  have hmessage : library.Declares ⟨1, [0, 1]⟩ chapter := messageAt?_eq_some_iff.mp rfl
  have henum : library.DeclaresEnum ⟨1, [0, 1], 0⟩
      { name := "Side", fullName := "lib.Book.Chapter.Side", values := [⟨"LEFT", 0⟩] } :=
    .inner hmessage rfl
  have hdot : ¬ Text.BeginsWithDot chapter.fullName := by decide
  have honly : library.OnlyMessageAt ⟨1, [0, 1]⟩ chapter.fullName := by decide
  have hshared : library.NamesNoMessage "lib.Book.Chapter.Side" := by decide
  obtain ⟨hplace, hfound, -⟩ := (index_finds_declared library).2.2.1 _ _ hmessage hdot honly
    ".lib.Book.Chapter" (by decide)
  obtain ⟨henumPlace, -, hpackage⟩ := (index_finds_declared library).2.2.2 _ _ henum (by decide)
    (by decide) "lib.Book.Chapter.Side" (by decide)
  obtain ⟨file, hfile, hfilePackage⟩ := hpackage hshared
  obtain rfl := Option.some.inj hfile
  exact ⟨hmessage, hdot, honly, hshared, hplace, hfound, henumPlace, hfilePackage⟩

end DescriptorSet

end MessageSchema
