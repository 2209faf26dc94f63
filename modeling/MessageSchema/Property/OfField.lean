import MessageSchema.Pool
import MessageSchema.Property.Basic

/-!
# The property of a field

A field becomes a single value, a list or a map by its cardinality. The items of a list and the
values of a map are described exactly as a single value is.

## Main definitions

* `Value.ofField`: the value that a field holds.
* `Property.ofField`: the property of a field.
* `Property.single`, `Property.list`, `Property.map`, `Property.reference`: one way of building it.
-/

namespace MessageSchema

/-- The value that a field holds, or each of its values. -/
def Value.ofField (pool : Pool) (owner : Message) (field : Field) : Except SchemaError Value :=
  match field.kind with
  | .message | .group => do
    let target ← pool.referenced owner field
    return { kind := .reference target.fullName }
  | .enum => match pool.enumeration? field.target with
    | some e => .ok { kind := .enumerated e.numbers }
    | none => .error (Pool.unresolved owner field field.target)
  | .bytes => .ok { kind := .bytes }
  | kind => .ok { kind := .plain kind.primitive }

namespace Property

/-- A field with one value. -/
def single (pool : Pool) (owner : Message) (field : Field) (title description : String) :
    Except SchemaError Property := do
  let value ← Value.ofField pool owner field
  return { fieldName := field.name, title, description, arity := .single, value }

/-- A field with a list of values. -/
def list (pool : Pool) (owner : Message) (field : Field) (title description : String) :
    Except SchemaError Property := do
  let value ← Value.ofField pool owner field
  return { fieldName := field.name, title, description, arity := .list, value }

/-- A field with values under keys. Keys and values are the fields of the entry of the map. -/
def map (pool : Pool) (owner : Message) (field : Field) (title description : String) :
    Except SchemaError Property := do
  let (entry, key, value) ← pool.entryFields owner field
  let value ← Value.ofField pool entry value
  return { fieldName := field.name, title, description, arity := .map key.kind.keyPattern?, value }

/-- A message by itself. Its description stays with the message. -/
def reference (target : Message) : Property :=
  { fieldName := "", title := "", description := "", arity := .single
    value := { kind := .reference target.fullName } }

/-- The property of a field. -/
def ofField (pool : Pool) (owner : Message) (field : Field) (title description : String) :
    Except SchemaError Property :=
  match field.cardinality with
  | .singular => single pool owner field title description
  | .list => list pool owner field title description
  | .map => map pool owner field title description

end Property

end MessageSchema
