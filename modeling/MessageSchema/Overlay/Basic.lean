import MessageSchema.Binary64.Numeral
import MessageSchema.Document.Member
import MessageSchema.Json.Printer
import MessageSchema.Text.Cut

/-!
# Option overlays

Options that a declaration may carry: whether a file or a message is generated, and how the schema
of a field is described and constrained. Keys are written in camel case or with underscores, and
numbers may be written as decimal texts. Zero and empty values say nothing.

## Main definitions

* `Generation`: the options of a file and of a message.
* `FieldOptions`: the options of a field.
* `FieldOptions.members`: how they are read and written.
-/

namespace MessageSchema

/-- The options of a file or a message. -/
structure Generation where
  /-- Whether the file or message is generated. -/
  generate : Bool := false
deriving DecidableEq, Inhabited

/-- The options of a field. -/
structure FieldOptions where
  /-- Whether the field is left out of the schema. -/
  ignore : Bool := false
  title : String := ""
  description : String := ""
  format : String := ""
  pattern : String := ""
  minimum : Binary64 := .zero false
  maximum : Binary64 := .zero false
  exclusiveMinimum : Bool := false
  exclusiveMaximum : Bool := false
  minLength : UInt64 := 0
  maxLength : UInt64 := 0
  minItems : UInt64 := 0
  maxItems : UInt64 := 0
  uniqueItems : Bool := false
  minProperties : UInt64 := 0
  maxProperties : UInt64 := 0
  contentEncoding : String := ""
  contentMediaType : String := ""
deriving DecidableEq, Inhabited

/-- A number or a text that spells one. -/
def readNumber (node : Json) : Decoded Binary64 :=
  let number := match node with
    | .integer n => Binary64.ofInt n
    | .real x => some x
    | .text s => readDecimal (Text.trim s.toList)
    | _ => none
  number.elim (Decoded.reject (.refused ("expected a finite number, found " ++ node.compact))) .ok

/-- A count or a text that spells one. -/
def readCount (node : Json) : Decoded UInt64 :=
  let count := match node with
    | .integer n => if 0 ≤ n then some n.toNat else none
    | .text s => readNatural 10 (Text.trim s.toList)
    | _ => none
  match count.filter (· < twoTo 64) with
  | some n => .ok (.ofNat n)
  | none => Decoded.reject
    (.refused ("expected a non-negative integer, found " ++ node.compact))

/-- The members of the options of a file or a message. -/
def Generation.members : List (Member Generation) :=
  [.defaulted "generate" Node.boolean .boolean (·.generate) fun x _ => ⟨x⟩]

/-- The options of a file or a message, read from an overlay. -/
def Generation.ofJson (name : String) : Json → Decoded Generation :=
  { Member.record name default Generation.members with closed := true }.decode

namespace FieldOptions

/-- Options that say nothing. -/
def blank : FieldOptions := {}

/-- The name of an option with underscores in place of capitals. -/
def withUnderscores (name : String) : String :=
  String.ofList (name.toList.flatMap fun c => if c.isUpper then ['_', c.toLower] else [c])

/-- An option under its two names, written unless it says nothing. -/
def option {α : Type} (name : String) (read : Json → Decoded α) (write : α → Json)
    (saysNothing : α → Bool) (get : FieldOptions → α) (set : α → FieldOptions → FieldOptions) :
    Member FieldOptions :=
  let spelled := withUnderscores name
  let member := Member.sparse name read
    (fun x => if saysNothing x then none else some (write x)) get set
  { member with aliases := if spelled = name then [] else [spelled] }

/-- A switch. -/
def switch (name : String) (get : FieldOptions → Bool) (set : Bool → FieldOptions → FieldOptions) :
    Member FieldOptions :=
  option name Node.boolean .boolean (!·) get set

/-- A text. -/
def text (name : String) (get : FieldOptions → String)
    (set : String → FieldOptions → FieldOptions) : Member FieldOptions :=
  option name Node.text .text (·.isEmpty) get set

/-- A bound. -/
def bound (name : String) (get : FieldOptions → Binary64)
    (set : Binary64 → FieldOptions → FieldOptions) : Member FieldOptions :=
  option name readNumber .real (·.isZero) get set

/-- A count. -/
def count (name : String) (get : FieldOptions → UInt64)
    (set : UInt64 → FieldOptions → FieldOptions) : Member FieldOptions :=
  option name readCount (fun n => .integer n.toNat) (· = 0) get set

/-- The members of the options of a field. -/
def members : List (Member FieldOptions) :=
  [switch "ignore" (·.ignore) fun x o => { o with ignore := x },
    text "title" (·.title) fun x o => { o with title := x },
    text "description" (·.description) fun x o => { o with description := x },
    text "format" (·.format) fun x o => { o with format := x },
    text "pattern" (·.pattern) fun x o => { o with pattern := x },
    bound "minimum" (·.minimum) fun x o => { o with minimum := x },
    bound "maximum" (·.maximum) fun x o => { o with maximum := x },
    switch "exclusiveMinimum" (·.exclusiveMinimum) fun x o => { o with exclusiveMinimum := x },
    switch "exclusiveMaximum" (·.exclusiveMaximum) fun x o => { o with exclusiveMaximum := x },
    count "minLength" (·.minLength) fun x o => { o with minLength := x },
    count "maxLength" (·.maxLength) fun x o => { o with maxLength := x },
    count "minItems" (·.minItems) fun x o => { o with minItems := x },
    count "maxItems" (·.maxItems) fun x o => { o with maxItems := x },
    switch "uniqueItems" (·.uniqueItems) fun x o => { o with uniqueItems := x },
    count "minProperties" (·.minProperties) fun x o => { o with minProperties := x },
    count "maxProperties" (·.maxProperties) fun x o => { o with maxProperties := x },
    text "contentEncoding" (·.contentEncoding) fun x o => { o with contentEncoding := x },
    text "contentMediaType" (·.contentMediaType) fun x o => { o with contentMediaType := x }]

/-- The options of a field, read from an overlay. -/
def ofJson : Json → Decoded FieldOptions :=
  { Member.record "FieldSchemaOptions" blank members with closed := true }.decode

end FieldOptions

end MessageSchema
