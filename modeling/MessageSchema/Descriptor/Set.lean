import MessageSchema.Descriptor.Basic

/-!
# Sets of descriptors

A set of files with the files to generate for. Messages and enums are found by their full names. Of
several declarations of one name that of the last file counts; within a file it is the first in the
order that puts nested messages in front of the message around them.

## Main definitions

* `DescriptorSet`: files and targets.
* `DescriptorSet.message?`, `DescriptorSet.enumeration?`, `DescriptorSet.packageOf?`: lookup.
-/

namespace MessageSchema

/-- A set of files. Without targets every file is a target. -/
structure DescriptorSet where
  files : List File
  targets : List String
deriving Inhabited

namespace DescriptorSet

/-- All messages with the packages of their files; the first of a name is the one that counts. -/
def messageIndex (set : DescriptorSet) : List (Message × String) :=
  set.files.reverse.flatMap fun file =>
    (Message.allWithNested file.messages).map (·, file.package)

/-- All enums with the packages of their files; the first of a name is the one that counts. -/
def enumIndex (set : DescriptorSet) : List (EnumType × String) :=
  set.files.reverse.flatMap fun file =>
    ((Message.allWithNested file.messages).flatMap (·.enums.reverse) ++ file.enums.reverse).map
      (·, file.package)

/-- All messages; the first of a name is the one that counts. -/
def messages (set : DescriptorSet) : List Message :=
  set.messageIndex.map (·.1)

/-- The message with a full name, which may be written with a dot in front. -/
def message? (set : DescriptorSet) (name : String) : Option Message :=
  set.messages.find? (·.fullName = Text.withoutDot name)

/-- The enum with a full name, which may be written with a dot in front. -/
def enumeration? (set : DescriptorSet) (name : String) : Option EnumType :=
  (set.enumIndex.map (·.1)).find? (·.fullName = Text.withoutDot name)

/-- The package of the file that declares a message or enum. -/
def packageOf? (set : DescriptorSet) (name : String) : Option String :=
  let bare := Text.withoutDot name
  ((set.messageIndex.find? (·.1.fullName = bare)).map (·.2)).or
    ((set.enumIndex.find? (·.1.fullName = bare)).map (·.2))

/-- The file with a path. -/
def file? (set : DescriptorSet) (path : String) : Option File :=
  set.files.find? (·.path = path)

/-- The files to generate for, in order. -/
def targetFiles (set : DescriptorSet) : List File :=
  set.files.filter fun file => set.targets.isEmpty || set.targets.contains file.path

/-- The full names of all messages in increasing order, each once. -/
def messageNames (set : DescriptorSet) : List String :=
  Dictionary.keys (.ofList (set.messages.map fun message => (message.fullName, ())))

end DescriptorSet

end MessageSchema
