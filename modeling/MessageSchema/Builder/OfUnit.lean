import MessageSchema.Builder.Code
import MessageSchema.CompilationUnit

/-!
# The module of a compilation unit

Every message of a unit gets two functions. One returns the reference that carries all it needs, the
other registers the message in a given registry and returns a reference to it. References inside a
schema become calls, so that building a schema registers what it refers to.

## Main definitions

* `Builder.codeOf`: the expression of a schema node.
* `Builder.moduleOf`: the module of a unit.
-/

namespace MessageSchema.Builder

/-- The fields of a text, if it is set. -/
def textField (name : String) (value : Option String) : List (String × Code) :=
  (value.map fun s => (name, Code.given (.text s))).toList

/-- The field of a count, if it is set. -/
def countField (name : String) (value : Option UInt64) : List (String × Code) :=
  (value.map fun n => (name, Code.given (.count n))).toList

/-- The field of a bound, if it is set. -/
def boundField (name : String) (value : Option Binary64) : List (String × Code) :=
  (value.map fun x => (name, Code.given (.bound x))).toList

/-- The field of a node inside a node, if it is set. -/
def boxedField (name : String) (value : Option Code) : List (String × Code) :=
  (value.map fun code => (name, Code.given (.boxed code))).toList

/-- The field of a collection, unless it is empty. -/
def collectionField {α : Type} (name : String) (code : List α → Code) (items : List α) :
    List (String × Code) :=
  if items.isEmpty then [] else [(name, code items)]

/-- What a node is based on: the message that it refers to, or nothing. -/
def baseOf (callees : Dictionary String) (node : Schema) : Code :=
  match node.referencedName? with
  | some name => match callees.get? name with
    | some builder => .call builder
    | none => .reference name
  | none => .blank

/-- A node with fields; without any it is its base. -/
def withFields (fields : List (String × Code)) (base : Code) : Code :=
  if fields.isEmpty then base else .node fields base

mutual

/-- The expression of a node. -/
def codeOf (callees : Dictionary String) : Schema → Code
  | node@⟨_, type, title, description, format, pattern, contentEncoding, contentMediaType,
      minLength, maxLength, minimum, maximum, exclusiveMinimum, exclusiveMaximum, enumValues, items,
      minItems, maxItems, uniqueItems, properties, required, additionalProperties, propertyNames,
      minProperties, maxProperties, oneOf, allOf, _⟩ =>
    withFields
      ((type.map fun type => ("instance_type", Code.given (.type type))).toList ++
        textField "title" title ++ textField "description" description ++
        textField "format" format ++ textField "pattern" pattern ++
        textField "content_encoding" contentEncoding ++
        textField "content_media_type" contentMediaType ++
        countField "min_length" minLength ++ countField "max_length" maxLength ++
        countField "min_items" minItems ++ countField "max_items" maxItems ++
        countField "min_properties" minProperties ++ countField "max_properties" maxProperties ++
        boundField "minimum" minimum ++ boundField "maximum" maximum ++
        boundField "exclusive_minimum" exclusiveMinimum ++
        boundField "exclusive_maximum" exclusiveMaximum ++
        collectionField "enum_values" .numbers enumValues ++
        (uniqueItems.map fun b => ("unique_items", Code.given (.truth b))).toList ++
        boxedField "items" (codeOfOption callees items) ++
        collectionField "properties" .entries (codeOfEntries callees properties) ++
        collectionField "required" .texts required ++
        boxedField "additional_properties" (codeOfOption callees additionalProperties) ++
        boxedField "property_names" (codeOfOption callees propertyNames) ++
        collectionField "one_of" .nodes (codeOfAll callees oneOf) ++
        collectionField "all_of" .nodes (codeOfAll callees allOf))
      (baseOf callees node)

/-- The expression of a node that may be missing. -/
def codeOfOption (callees : Dictionary String) : Option Schema → Option Code
  | none => none
  | some node => some (codeOf callees node)

/-- The expressions of several nodes. -/
def codeOfAll (callees : Dictionary String) : List Schema → List Code
  | [] => []
  | node :: rest => codeOf callees node :: codeOfAll callees rest

/-- The expressions of the nodes under several keys. -/
def codeOfEntries (callees : Dictionary String) : List (String × Schema) → List (String × Code)
  | [] => []
  | (key, node) :: rest => (key, codeOf callees node) :: codeOfEntries callees rest

end

/-- The function that returns the reference to a message with all it needs. -/
def rootFunction (type : GeneratedType) : Function where
  name := type.ident ++ "_json_schema"
  isGivenRegistry := false
  body :=
    [.newRegistry, .callOnly (CompilationUnit.builderName type.ident), .returnRoot type.fullName]

/-- The function that registers a message. The message is registered before its schema is built, so
that a reference back to it finds it. -/
def registerFunction (callees : Dictionary String) (type : GeneratedType) : Function where
  name := CompilationUnit.builderName type.ident
  isGivenRegistry := true
  body :=
    [.returnIfRegistered type.fullName, .registerBlank type.fullName,
      .build (codeOf callees type.shape), .registerBuilt type.fullName,
      .returnReference type.fullName]

/-- The functions of a message. -/
def sectionOf (callees : Dictionary String) (type : GeneratedType) : Section where
  summary := match type.origin with
    | .own => "JSON Schema for the `" ++ Text.lastPiece '.' type.fullName ++ "` message."
    | .shared => "JSON Schema for the shared `" ++ type.fullName ++ "` message."
  functions := [rootFunction type, registerFunction callees type]

/-- The module of a unit. -/
def moduleOf (unit : CompilationUnit) (version : String) (generatedOn : Option Int) : Module where
  source := unit.source
  version := version
  generatedOn := generatedOn
  sections := unit.types.map (sectionOf unit.callees)

end MessageSchema.Builder
