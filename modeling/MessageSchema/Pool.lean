import MessageSchema.Descriptor.Set

/-!
# Pools of types

What a schema may refer to: messages, enums and packages by name. A pool also lists its messages, so
that a walk along references knows how many there are.

## Main definitions

* `Pool`: lookup by name.
* `DescriptorSet.pool`: the pool of a set of descriptors.
* `Pool.referenced`, `Pool.entryFields`: what a field refers to.
-/

namespace MessageSchema

/-- Lookup of types by full name. -/
structure Pool where
  message? : String → Option Message
  enumeration? : String → Option EnumType
  packageOf? : String → Option String
  /-- All messages that lookup can give. -/
  messages : List Message
  mem_of_message? : ∀ {name : String} {message : Message},
    message? name = some message → message ∈ messages

/-- The pool of a set of descriptors. -/
def DescriptorSet.pool (set : DescriptorSet) : Pool where
  message? := set.message?
  enumeration? := set.enumeration?
  packageOf? := set.packageOf?
  messages := set.messages
  mem_of_message? h := List.mem_of_find?_eq_some h

namespace Pool

/-- The fault of a field whose type cannot be found. -/
def unresolved (owner : Message) (field : Field) (target : String) : SchemaError :=
  .unresolvedReference owner.fullName (some field.name) target

/-- The message that a field refers to. -/
def referenced (pool : Pool) (owner : Message) (field : Field) : Except SchemaError Message :=
  match pool.message? field.target with
  | some message => .ok message
  | none => .error (unresolved owner field field.target)

/-- The entry of a map field with its key and its value. -/
def entryFields (pool : Pool) (owner : Message) (field : Field) :
    Except SchemaError (Message × Field × Field) := do
  let entry ← pool.referenced owner field
  match entry.fieldByNumber? Message.keyNumber, entry.fieldByNumber? Message.valueNumber with
  | some key, some value => return (entry, key, value)
  | _, _ => .error (unresolved owner field (entry.fullName ++ " (map entry key/value)"))

end Pool

end MessageSchema
