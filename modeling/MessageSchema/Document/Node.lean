import MessageSchema.Document.Rejection
import MessageSchema.Json.Value

/-!
# Nodes of a document

Documents come in several notations. Each notation says how one of its nodes is taken for a text, a
truth value, a whole number, a list or a record; the readers of lists, optional values and numbers
of a certain width are the same for all of them.

## Main definitions

* `Node`: what a notation has to say about its nodes.
* `Entry`, `Parts`: the parts of a record, by name or by position.
* `Node.list`, `Node.optional`, `Node.whole`, `Node.oneOf`: readers for any notation.
-/

namespace MessageSchema

/-- A part of a record under its name. -/
structure Entry (ν : Type) where
  name : Decoded String
  /-- The step from the record to the part. -/
  step : Step
  node : ν

/-- The parts of a record: named, or in the order of the fields, with the rejection of parts beyond
the last field. -/
inductive Parts (ν : Type) where
  | named (entries : List (Entry ν))
  | inOrder (items : List ν) (surplus : Rejection)

/-- What a notation has to say about its nodes. Every operation but the last takes a node for a
value of one kind. -/
class Node (ν : Type) where
  text : ν → Decoded String
  boolean : ν → Decoded Bool
  /-- A whole number of up to 64 bits, for a field that has negative values or has none. -/
  integer : (signed : Bool) → (expected : String) → ν → Decoded Int
  /-- Any number. -/
  real : ν → Decoded Binary64
  items : ν → Decoded (List ν)
  /-- The parts of a record. -/
  parts : (expected : String) → ν → Decoded (Parts ν)
  /-- The name of one of several choices. -/
  choice : (names : List String) → ν → Decoded String
  /-- Whether no value is given. -/
  isAbsent : ν → Decoded Bool
  /-- A value of any kind. -/
  value : ν → Decoded Json
  /-- Passing over a node without reading it. -/
  pass : ν → Decoded Unit
  /-- A bound on how deep nodes nest below the node. -/
  depth : ν → Nat

/-- The name of a choice if it is one of those that are known. -/
def Decoded.known (names : List String) (name : String) : Decoded String :=
  if names.contains name then .ok name else .reject (.unknownVariant name names)

namespace Node

variable {ν α : Type} [Node ν]

/-- The items of a list, each read in turn. -/
def listFrom (read : ν → Decoded α) : Nat → List ν → Decoded (List α)
  | _, [] => .ok []
  | n, item :: rest => do
    let first ← (read item).under (.index n)
    let others ← listFrom read (n + 1) rest
    return first :: others

/-- A list. -/
def list (read : ν → Decoded α) (node : ν) : Decoded (List α) :=
  Decoded.here do
    listFrom read 0 (← items node)

/-- A value that may be absent. -/
def optional (read : ν → Decoded α) (node : ν) : Decoded (Option α) := do
  if ← isAbsent node then return none else return some (← read node)

/-- A whole number between two limits. -/
def whole (expected : String) (least greatest : Int) (node : ν) : Decoded Int :=
  Decoded.here do
    let n ← integer (least < 0) expected node
    if least ≤ n ∧ n ≤ greatest then return n
    else Decoded.reject (.wrongValue (.integer n) expected)

/-- A natural number of 32 bits. -/
def natural32 (node : ν) : Decoded Nat :=
  Int.toNat <$> whole "u32" 0 (twoTo 32 - 1) node

/-- A natural number of 64 bits. -/
def natural64 (node : ν) : Decoded Nat :=
  Int.toNat <$> whole "u64" 0 (twoTo 64 - 1) node

/-- A position. -/
def position (node : ν) : Decoded Nat :=
  Int.toNat <$> whole "usize" 0 (twoTo 64 - 1) node

/-- An integer of 32 bits. -/
def integer32 (node : ν) : Decoded Int :=
  whole "i32" (- twoTo 31) (twoTo 31 - 1) node

/-- An integer of 64 bits. -/
def integer64 (node : ν) : Decoded Int :=
  whole "i64" (- twoTo 63) (twoTo 63 - 1) node

/-- One of several choices, each under its name. -/
def oneOf (choices : List (String × α)) (node : ν) : Decoded α := do
  let names := choices.map (·.1)
  let name ← choice names node
  match choices.find? (·.1 == name) with
  | some (_, a) => return a
  | none => Decoded.reject (.unknownVariant name names)

/-- The entries of a dictionary, each read in turn. -/
def entriesFrom (read : ν → Decoded α) : List (Entry ν) → Decoded (List (String × α))
  | [] => .ok []
  | entry :: rest => do
    let key ← entry.name
    let value ← (read entry.node).under entry.step
    let others ← entriesFrom read rest
    return (key, value) :: others

/-- A dictionary; of several entries with one key the last counts. -/
def dictionary (read : ν → Decoded α) (node : ν) : Decoded (Dictionary α) :=
  Decoded.here do
    match ← parts "a map" node with
    | .inOrder _ _ => Decoded.reject (.wrongType .sequence "a map")
    | .named entries => return .ofList (← entriesFrom read entries)

end Node

end MessageSchema
