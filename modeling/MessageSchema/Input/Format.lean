import MessageSchema.Disk.Basic
import MessageSchema.Json.Node

/-!
# Formats of inputs

Descriptors come as manifests or as descriptor sets. A path tells which by its extension; a JSON
text does by its shape.

## Main definitions

* `Format`: the formats.
* `Format.ofJson?`: the format of a JSON text.
* `Format.detect`: the format of a file.
-/

namespace MessageSchema

/-- A format of descriptors. -/
inductive Format
  | manifest
  | descriptorSet
deriving DecidableEq, Inhabited

namespace Format

/-- The name of a format. -/
def name : Format → String
  | manifest => "manifest"
  | descriptorSet => "descriptor-set"

/-- The format of a JSON text, which has to be an object: a descriptor set has an array of files
under one of two keys. -/
def ofJson? (text : String) : Option Format :=
  match Json.parse? text with
  | some (.object members) =>
    let hasArray (key : String) : Bool := ((Json.object members).member? key).any Json.isArray
    some (if hasArray "file" || hasArray "protoFile" then descriptorSet else manifest)
  | _ => none

/-- The format of a file, if it can be told. -/
def detect {m : Type → Type} [Monad m] (disk : Disk m) (path : Path) : m (Option Format) := do
  match path.extension? with
  | some "yaml" | some "yml" => return some manifest
  | some "json" => return (← disk.read path).toOption.bind ofJson?
  | _ => return none

end Format

end MessageSchema
