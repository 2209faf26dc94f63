import MessageSchema.Binary64.Basic
import MessageSchema.Dictionary

/-!
# JSON values

A JSON value whose numbers are whole numbers of at most 64 bits or finite binary64 numbers. The
members of an object are kept in the order in which they are written; objects read from a text are
dictionaries.

## Main definitions

* `Json`: a value.
* `Json.depth`: how deep containers nest in it.
* `Json.member?`: the value under a key of an object.
-/

namespace MessageSchema

/-- A JSON value. -/
inductive Json where
  | null
  | boolean (b : Bool)
  | integer (n : Int)
  | real (x : Binary64)
  | text (s : String)
  | array (items : List Json)
  | object (members : List (String × Json))
deriving Inhabited

namespace Json

mutual

/-- The number of containers around the innermost value. -/
def depth : Json → Nat
  | .array items => depthOfItems items + 1
  | .object members => depthOfMembers members + 1
  | _ => 0

/-- The greatest depth among the items of an array. -/
def depthOfItems : List Json → Nat
  | [] => 0
  | item :: rest => max (depth item) (depthOfItems rest)

/-- The greatest depth among the values of an object. -/
def depthOfMembers : List (String × Json) → Nat
  | [] => 0
  | (_, value) :: rest => max (depth value) (depthOfMembers rest)

end

/-- The value under a key of an object. -/
def member? (key : String) : Json → Option Json
  | .object members => Dictionary.get? key members
  | _ => none

/-- Whether a value is an array. -/
def isArray : Json → Bool
  | .array _ => true
  | _ => false

/-- A list of texts. -/
def texts (items : List String) : Json :=
  .array (items.map .text)

/-- The value, or null where there is none. -/
def orNull {α : Type} (write : α → Json) : Option α → Json
  | none => .null
  | some x => write x

end Json

end MessageSchema
