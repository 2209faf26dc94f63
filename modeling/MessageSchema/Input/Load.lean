import MessageSchema.Input.Format
import MessageSchema.Manifest.Load
import MessageSchema.Protojson.Load

/-!
# Loading inputs

An input is a file whose format is told from it. The wording of an error names the file.

## Main definitions

* `Input.Error`: why an input gives no set of descriptors.
* `Input.load`: the set of descriptors of a file.
-/

namespace MessageSchema.Input

/-- Why an input gives no set of descriptors. -/
inductive Error
  | notFound (path : Path)
  | unknownFormat (path : Path)
  | unreadable (path : Path) (error : DiskError)
  | badManifest (path : Path) (error : Manifest.LoadError)
  | badDescriptorSet (path : Path) (error : Protojson.LoadError)

/-- The wording of an error in a file of a format. -/
def failedToLoad (path : Path) (format : Format) (reason : String) : String :=
  "Failed to load " ++ path.text ++ " as " ++ format.name ++ ": " ++ reason

/-- The wording of an error. -/
def Error.message : Error → String
  | .notFound path => "File not found: " ++ path.text
  | .unknownFormat path =>
    "Cannot determine input format of " ++ path.text ++ " (expected .yaml, .yml or .json)"
  | .unreadable path error => "Failed to read " ++ path.text ++ ": " ++ error.message
  | .badManifest path error => failedToLoad path .manifest error.message
  | .badDescriptorSet path error =>
    failedToLoad path .descriptorSet <|
      match error with
      | .rejected _ => "Invalid descriptor set JSON: " ++ error.message
      | .groupOutOfRange _ _ _ => error.message

/-- The set of descriptors of a text in a format, read from a file. -/
def read (path : Path) (text : String) : Format → Except Error DescriptorSet
  | .manifest => (Manifest.load text).mapError (.badManifest path)
  | .descriptorSet => (Protojson.load text).mapError (.badDescriptorSet path)

/-- The set of descriptors of a file. -/
def load {m : Type → Type} [Monad m] (disk : Disk m) (path : Path) :
    m (Except Error DescriptorSet) := do
  if !(← disk.isThere path) then return .error (.notFound path)
  else match ← Format.detect disk path with
    | none => return .error (.unknownFormat path)
    | some format => match ← disk.read path with
      | .error error => return .error (.unreadable path error)
      | .ok text => return read path text format

end MessageSchema.Input
