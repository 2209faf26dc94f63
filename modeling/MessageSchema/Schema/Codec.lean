import MessageSchema.Binary64.Rounding
import MessageSchema.Document.Member
import MessageSchema.Schema.Basic

/-!
# Schema nodes as JSON

One table of keywords fixes how a node is read from JSON and written to it. Unset keywords are left
out, so that a reference is an object with a single key.

## Main definitions

* `Schema.members`: the keywords in the order in which they are written.
* `Schema.ofJson`, `Schema.toJson`: a node read and written.
-/

namespace MessageSchema

/-- A count of 64 bits. -/
def readUInt64 (node : Json) : Decoded UInt64 :=
  UInt64.ofNat <$> Node.natural64 node

/-- An integer of 64 bits. -/
def readInt64 (node : Json) : Decoded Int64 :=
  Int64.ofInt <$> Node.integer64 node

namespace Schema

/-- A keyword with a count. -/
def countMember (name : String) (get : Schema → Option UInt64)
    (set : Option UInt64 → Schema → Schema) : Member Schema :=
  .optional name readUInt64 (fun n => .integer n.toNat) get set

/-- A keyword with a text. -/
def textMember (name : String) (get : Schema → Option String)
    (set : Option String → Schema → Schema) : Member Schema :=
  .optional name Node.text .text get set

/-- A keyword with a bound. -/
def boundMember (name : String) (get : Schema → Option Binary64)
    (set : Option Binary64 → Schema → Schema) : Member Schema :=
  .optional name Node.real .real get set

/-- The keywords in the order in which they are written, given how the nodes inside a node are read
and written. -/
def members (read : Json → Decoded Schema) (write : Schema → Json) : List (Member Schema) :=
  [textMember "$ref" (·.ref) fun x s => { s with ref := x },
    .optional "type" (Node.oneOf (PrimitiveType.all.map fun type => (type.name, type)))
      (fun type => .text type.name) (·.type) fun x s => { s with type := x },
    textMember "title" (·.title) fun x s => { s with title := x },
    textMember "description" (·.description) fun x s => { s with description := x },
    textMember "format" (·.format) fun x s => { s with format := x },
    textMember "pattern" (·.pattern) fun x s => { s with pattern := x },
    textMember "contentEncoding" (·.contentEncoding) fun x s => { s with contentEncoding := x },
    textMember "contentMediaType" (·.contentMediaType) fun x s => { s with contentMediaType := x },
    countMember "minLength" (·.minLength) fun x s => { s with minLength := x },
    countMember "maxLength" (·.maxLength) fun x s => { s with maxLength := x },
    boundMember "minimum" (·.minimum) fun x s => { s with minimum := x },
    boundMember "maximum" (·.maximum) fun x s => { s with maximum := x },
    boundMember "exclusiveMinimum" (·.exclusiveMinimum) fun x s => { s with exclusiveMinimum := x },
    boundMember "exclusiveMaximum" (·.exclusiveMaximum) fun x s => { s with exclusiveMaximum := x },
    .list "enum" readInt64 (fun n => .integer n.toInt) (·.enumValues)
      fun x s => { s with enumValues := x },
    .optional "items" read write (·.items) fun x s => { s with items := x },
    countMember "minItems" (·.minItems) fun x s => { s with minItems := x },
    countMember "maxItems" (·.maxItems) fun x s => { s with maxItems := x },
    .optional "uniqueItems" Node.boolean .boolean (·.uniqueItems)
      fun x s => { s with uniqueItems := x },
    .dictionary "properties" read write (·.properties) fun x s => { s with properties := x },
    .list "required" Node.text .text (·.required) fun x s => { s with required := x },
    .optional "additionalProperties" read write (·.additionalProperties)
      fun x s => { s with additionalProperties := x },
    .optional "propertyNames" read write (·.propertyNames)
      fun x s => { s with propertyNames := x },
    countMember "minProperties" (·.minProperties) fun x s => { s with minProperties := x },
    countMember "maxProperties" (·.maxProperties) fun x s => { s with maxProperties := x },
    .list "oneOf" read write (·.oneOf) fun x s => { s with oneOf := x },
    .list "allOf" read write (·.allOf) fun x s => { s with allOf := x },
    .dictionary "$defs" read write (·.defs) fun x s => { s with defs := x }]

/-- A node read from JSON, with nodes inside it up to a number of levels. -/
def ofJsonWithin : Nat → Json → Decoded Schema
  | 0, _ => Decoded.reject .tooDeep
  | levels + 1, node =>
    (Member.record "Schema" blank (members (ofJsonWithin levels) fun _ => .null)).decode node

/-- A node read from JSON. No node nests deeper than the containers around it. -/
def ofJson (node : Json) : Decoded Schema :=
  ofJsonWithin (node.depth + 1) node

/-- A node written to JSON, with nodes inside it up to a number of levels. -/
def toJsonWithin : Nat → Schema → Json
  | 0, _ => .null
  | levels + 1, node =>
    Member.encode (members (fun _ => Decoded.reject .tooDeep) (toJsonWithin levels)) node

mutual

/-- How deep nodes nest in a node. -/
def nesting : Schema → Nat
  | ⟨_, _, _, _, _, _, _, _, _, _, _, _, _, _, _, items, _, _, _, properties, _,
      additionalProperties, propertyNames, _, _, oneOf, allOf, defs⟩ =>
    max (max (max (nestingOfOption items) (nestingOfOption additionalProperties))
        (max (nestingOfOption propertyNames) (nestingOfEntries properties)))
      (max (max (nestingOfAll oneOf) (nestingOfAll allOf)) (nestingOfEntries defs)) + 1

/-- The nesting of a node that may be missing. -/
def nestingOfOption : Option Schema → Nat
  | none => 0
  | some node => nesting node

/-- The greatest nesting among several nodes. -/
def nestingOfAll : List Schema → Nat
  | [] => 0
  | node :: rest => max (nesting node) (nestingOfAll rest)

/-- The greatest nesting among the nodes under several keys. -/
def nestingOfEntries : List (String × Schema) → Nat
  | [] => 0
  | (_, node) :: rest => max (nesting node) (nestingOfEntries rest)

end

/-- A node written to JSON. -/
def toJson (node : Schema) : Json :=
  toJsonWithin node.nesting node

end Schema

end MessageSchema
