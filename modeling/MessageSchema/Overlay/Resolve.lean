import MessageSchema.Binary64.Layout
import MessageSchema.Descriptor.Basic
import MessageSchema.Overlay.Basic
import MessageSchema.Pattern.Compile

/-!
# Options of a declaration

An overlay that is absent or null says nothing. Any other has to be readable, and the options of a
field have to agree with each other: its pattern compiles and no lower bound exceeds the upper one.

## Main definitions

* `FieldOptions.check`: whether the options of a field agree with each other.
* `File.options`, `Message.options`, `Field.options`: the options of a declaration.
-/

namespace MessageSchema

namespace FieldOptions

/-- A lower and an upper count, each with its name. -/
def countBounds (o : FieldOptions) : List ((String × UInt64) × (String × UInt64)) :=
  [(("minLength", o.minLength), ("maxLength", o.maxLength)),
    (("minItems", o.minItems), ("maxItems", o.maxItems)),
    (("minProperties", o.minProperties), ("maxProperties", o.maxProperties))]

/-- Whether a lower count exceeds an upper one, both being given. -/
def countsCross (least greatest : UInt64) : Bool :=
  least ≠ 0 && greatest ≠ 0 && greatest < least

/-- What is wrong with the options, if anything. Of a pattern that does not compile no more is said. -/
def fault? (o : FieldOptions) : Option String :=
  if !o.pattern.isEmpty && !Pattern.compiles o.pattern then some "pattern does not compile"
  else match o.countBounds.find? fun (least, greatest) => countsCross least.2 greatest.2 with
    | some (least, greatest) => some (least.1 ++ " (" ++ toString least.2 ++ ") exceeds " ++
        greatest.1 ++ " (" ++ toString greatest.2 ++ ")")
    | none =>
      if !o.minimum.isZero && !o.maximum.isZero && o.maximum < o.minimum then
        some ("minimum (" ++ NumberLayout.plain.text o.minimum ++ ") exceeds maximum (" ++
          NumberLayout.plain.text o.maximum ++ ")")
      else none

/-- Fails if the options do not agree with each other. -/
def check (scope : String) (o : FieldOptions) : Except SchemaError Unit :=
  match o.fault? with
  | some reason => .error (.malformedOption scope reason)
  | none => .ok ()

end FieldOptions

/-- The options of an overlay, or nothing where it is absent or null. -/
def readOverlay {α : Type} (read : Json → Decoded α) (scope : String) :
    Option Json → Except SchemaError (Option α)
  | none | some .null => .ok none
  | some overlay => match read overlay with
    | .ok options => .ok (some options)
    | .error rejection => .error (.malformedOption scope rejection.cause.message)

/-- The options of a file. -/
def File.options (file : File) : Except SchemaError (Option Generation) :=
  readOverlay (Generation.ofJson "FileSchemaOptions") ("file " ++ file.path) file.overlay

/-- The options of a message. -/
def Message.options (message : Message) : Except SchemaError (Option Generation) :=
  readOverlay (Generation.ofJson "MessageSchemaOptions") ("message " ++ message.fullName)
    message.overlay

/-- The options of a field of a message. -/
def Field.options (owner : Message) (field : Field) : Except SchemaError (Option FieldOptions) := do
  let scope := "field " ++ owner.fullName ++ "." ++ field.name
  let options ← readOverlay FieldOptions.ofJson scope field.overlay
  match options with
  | some o =>
    o.check scope
    return options
  | none => return none

end MessageSchema
