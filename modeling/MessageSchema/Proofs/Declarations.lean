import MessageSchema.Pool
import MessageSchema.Proofs.Cut
import Mathlib.Data.List.Nodup

/-!
# Looking up what a set declares

A set whose full names are all different gives each message back under its name. Lookup ignores one
dot in front of a name, so a message whose own name begins with a dot cannot be found by it.

## Main definitions

* `DescriptorSet.DeclaredOnce`: no two messages have the same full name.
* `DescriptorSet.Undotted`: no full name of a message begins with a dot.

## Main results

* `Message.nested_induction`: induction on the messages that are nested in a message.
* `Message.mem_allWithNested_of_nested`: what is nested in a message of a set is a message of the
  set.
* `DescriptorSet.DeclaredOnce.message?_fullName`: each message is found by its full name.
-/

namespace MessageSchema

namespace Message

theorem withNested_eq (message : Message) :
    message.withNested = allWithNested message.nested ++ [message] := by
  cases message
  rfl

theorem allWithNested_eq_flatMap (roots : List Message) :
    allWithNested roots = roots.flatMap withNested := by
  induction roots with
  | nil => rfl
  | cons root rest ih => rw [allWithNested, ih, List.flatMap_cons]

theorem mem_allWithNested {message : Message} {roots : List Message} :
    message ∈ allWithNested roots ↔ ∃ root ∈ roots, message ∈ root.withNested := by
  rw [allWithNested_eq_flatMap, List.mem_flatMap]

theorem mem_withNested_self (message : Message) : message ∈ message.withNested := by
  simp [withNested_eq]

theorem mem_allWithNested_self {message : Message} {roots : List Message} (h : message ∈ roots) :
    message ∈ allWithNested roots :=
  mem_allWithNested.mpr ⟨message, h, mem_withNested_self message⟩

mutual

/-- What holds of a message as soon as it holds of the messages nested in it holds of every
message. -/
theorem nested_induction {p : Message → Prop}
    (h : ∀ message : Message, (∀ inner ∈ message.nested, p inner) → p message) :
    ∀ message, p message
  | ⟨_, _, _, _, nested, _, _, _, _, _, _⟩ => h _ (nested_induction_list h nested)

theorem nested_induction_list {p : Message → Prop}
    (h : ∀ message : Message, (∀ inner ∈ message.nested, p inner) → p message) :
    ∀ messages : List Message, ∀ message ∈ messages, p message
  | [] => by simp
  | message :: rest =>
    List.forall_mem_cons.mpr ⟨nested_induction h message, nested_induction_list h rest⟩

end

theorem mem_withNested_of_nested {message inner : Message} (hinner : inner ∈ message.nested)
    (root : Message) : message ∈ root.withNested → inner ∈ root.withNested := by
  induction root using nested_induction with
  | h root ih =>
    intro h
    rw [withNested_eq] at h ⊢
    refine List.mem_append_left _ (mem_allWithNested.mpr ?_)
    rcases List.mem_append.mp h with h | h
    · obtain ⟨outer, houter, h⟩ := mem_allWithNested.mp h
      exact ⟨outer, houter, ih outer houter h⟩
    · obtain rfl := List.mem_singleton.mp h
      exact ⟨inner, hinner, mem_withNested_self inner⟩

/-- What is nested in one of several messages, at any depth, is among them with all nested ones. -/
theorem mem_allWithNested_of_nested {message inner : Message} (hinner : inner ∈ message.nested)
    (roots : List Message) (h : message ∈ allWithNested roots) : inner ∈ allWithNested roots := by
  obtain ⟨root, hroot, h⟩ := mem_allWithNested.mp h
  exact mem_allWithNested.mpr ⟨root, hroot, mem_withNested_of_nested hinner root h⟩

section Inherited

variable {p : Message → Prop}

theorem forall_mem_withNested (hnested : ∀ message, p message → ∀ inner ∈ message.nested, p inner)
    (root : Message) : p root → ∀ message ∈ root.withNested, p message := by
  induction root using nested_induction with
  | h root ih =>
    intro hroot message h
    rw [withNested_eq] at h
    rcases List.mem_append.mp h with h | h
    · obtain ⟨inner, hinner, h⟩ := mem_allWithNested.mp h
      exact ih inner hinner (hnested root hroot inner hinner) message h
    · obtain rfl := List.mem_singleton.mp h
      exact hroot

/-- What passes on to nested messages holds of everything nested in several messages, and of them,
if it holds of them. -/
theorem forall_mem_allWithNested
    (hnested : ∀ message, p message → ∀ inner ∈ message.nested, p inner) {roots : List Message}
    (hroots : ∀ root ∈ roots, p root) : ∀ message ∈ allWithNested roots, p message := by
  intro message h
  obtain ⟨root, hroot, h⟩ := mem_allWithNested.mp h
  exact forall_mem_withNested hnested root (hroots root hroot) message h

end Inherited

end Message

namespace DescriptorSet

variable {set : DescriptorSet} {message other : Message} {name : String}

/-- No two messages of the set have the same full name. -/
def DeclaredOnce (set : DescriptorSet) : Prop :=
  (set.messages.map (·.fullName)).Nodup

/-- No message of the set has a full name that begins with a dot. -/
def Undotted (set : DescriptorSet) : Prop :=
  ∀ message ∈ set.messages, ¬ Text.BeginsWithDot message.fullName

instance (set : DescriptorSet) : Decidable set.DeclaredOnce :=
  inferInstanceAs (Decidable (List.Nodup _))

instance (set : DescriptorSet) : Decidable set.Undotted :=
  inferInstanceAs (Decidable (∀ message ∈ set.messages, ¬ Text.BeginsWithDot message.fullName))

theorem mem_messages :
    message ∈ set.messages ↔ ∃ file ∈ set.files, message ∈ Message.allWithNested file.messages := by
  simp only [messages, messageIndex, List.mem_map, List.mem_flatMap, List.mem_reverse]
  constructor
  · rintro ⟨_, ⟨file, hfile, inner, hinner, rfl⟩, rfl⟩
    exact ⟨file, hfile, hinner⟩
  · rintro ⟨file, hfile, h⟩
    exact ⟨_, ⟨file, hfile, message, h, rfl⟩, rfl⟩

theorem mem_messages_of_file {file : File} (hfile : file ∈ set.files)
    (h : message ∈ file.messages) : message ∈ set.messages :=
  mem_messages.mpr ⟨file, hfile, Message.mem_allWithNested_self h⟩

theorem mem_messages_of_nested (h : message ∈ set.messages) (hother : other ∈ message.nested) :
    other ∈ set.messages := by
  obtain ⟨file, hfile, h⟩ := mem_messages.mp h
  exact mem_messages.mpr ⟨file, hfile, Message.mem_allWithNested_of_nested hother _ h⟩

theorem mem_messages_of_mem_allWithNested {roots : List Message}
    (hroots : ∀ root ∈ roots, root ∈ set.messages) (h : message ∈ Message.allWithNested roots) :
    message ∈ set.messages :=
  Message.forall_mem_allWithNested (fun _ houter _ hinner => mem_messages_of_nested houter hinner)
    hroots message h

theorem mem_messages_of_message? (h : set.pool.message? name = some message) :
    message ∈ set.messages :=
  set.pool.mem_of_message? h

theorem DeclaredOnce.eq_of_fullName_eq (h : set.DeclaredOnce) (hmessage : message ∈ set.messages)
    (hother : other ∈ set.messages) (hname : message.fullName = other.fullName) :
    message = other :=
  List.inj_on_of_nodup_map h hmessage hother hname

/-- In a set that declares each name once and without a dot in front, each message is found by its
full name. -/
theorem DeclaredOnce.message?_fullName (h : set.DeclaredOnce) (hdot : set.Undotted)
    (hmessage : message ∈ set.messages) : set.pool.message? message.fullName = some message := by
  have hbare : Text.withoutDot message.fullName = message.fullName :=
    Text.withoutDot_of_no_dot (hdot message hmessage)
  cases hfound : set.pool.message? message.fullName with
  | none =>
    have := List.find?_eq_none.mp hfound message hmessage
    simp [hbare] at this
  | some found =>
    have hname : found.fullName = message.fullName := by
      simpa [hbare] using List.find?_some hfound
    exact congrArg some (h.eq_of_fullName_eq (mem_messages_of_message? hfound) hmessage hname)

end DescriptorSet

end MessageSchema
