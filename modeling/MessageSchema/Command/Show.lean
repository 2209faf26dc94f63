import MessageSchema.Command.Basic
import MessageSchema.CompilationUnit

/-!
# Showing the schema of a message

The document of one message, with everything that it needs, whether or not its file is generated. A
message that opts out has none.

## Main definitions

* `Showing.document`: the document of a message.
* `Command.showMessage`: the command.
-/

namespace MessageSchema

namespace Showing

/-- Why a message has no document. -/
inductive Error
  | unknownType (name : String)
  | mapEntry (name : String)
  | optsOut (name : String)
  | notSelected (error : SchemaError)
  | notSynthesized (name : String) (error : SchemaError)

/-- The wording of an error. -/
def Error.message : Error → String
  | .unknownType name => "Unknown message type: " ++ name
  | .mapEntry name => name ++ " is a map entry; show the message that declares the map instead"
  | .optsOut name => name ++ " opts out of generation (generate: false)"
  | .notSelected error => error.message
  | .notSynthesized name error => "Failed to synthesize " ++ name ++ ": " ++ error.message

/-- The document of a message, which may be named with a dot in front. -/
def document (set : DescriptorSet) (typeName : String) : Except Error Schema := do
  let name := Text.withoutDot typeName
  match set.message? name with
  | none => .error (.unknownType name)
  | some message =>
    if message.mapEntry then .error (.mapEntry name)
    else
      let selected ← (Selection.select set.pool [message] true []).2.mapError .notSelected
      let names := selected.map (·.fullName)
      if !names.contains name then .error (.optsOut name)
      else (Synthesis.root set.pool names name).mapError (.notSynthesized name)

/-- The report on a message. -/
def report (typeName : String) (compact : Bool) (set : DescriptorSet) : Outcome :=
  match document set typeName with
  | .error error => .failed error.message
  | .ok schema =>
    let document := schema.toJson
    .ofLines [if compact then document.compact else document.pretty]

end Showing

namespace Command

/-- Shows the document of a message of an input. -/
def showMessage {m : Type → Type} [Monad m] (disk : Disk m) (input : Path) (typeName : String)
    (compact : Bool) : m Outcome :=
  onInput disk input (Showing.report typeName compact)

end Command

end MessageSchema
