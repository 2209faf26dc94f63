import MessageSchema.Document.Node
import MessageSchema.Yaml.Scalar

/-!
# YAML trees as documents

A node is seen together with the nodes that aliases stand for and with how much deeper it may nest.
An empty plain scalar also counts as an empty list and as a record without parts; any scalar counts
as its text. A choice may be written as a tag of its own.

## Main definitions

* `Yaml.View`: a node as it is read.
* `Yaml.View.ofText`: the root of a text, and the fault of what stands behind it.
-/

namespace MessageSchema.Yaml

/-- A node as it is read: the nodes that aliases stand for, the node, which is no alias, and how
many more containers may nest in it. -/
structure View where
  anchored : List (Nat × Tree)
  tree : Tree
  room : Nat

namespace View

/-- How deep containers may nest. -/
def depthLimit : Nat := 128

/-- The node that a tree stands for. -/
def resolve (anchored : List (Nat × Tree)) : Tree → Tree
  | .alias id => (anchored.lookup id).getD .nothing
  | tree => tree

/-- A tree below a node that is read. -/
def inside (view : View) (tree : Tree) : View :=
  ⟨view.anchored, resolve view.anchored tree, view.room - 1⟩

/-- Rejects a node where something else is wanted. -/
def mismatched {α : Type} (expected : String) : Tree → Decoded α
  | .nothing | .alias _ => Decoded.reject (.wrongType (.nothing "unit value") expected)
  | .scalar properties style text => match meaning properties.tag style text with
    | .ok meaning => Decoded.reject (.wrongType (meaning.found text) expected)
    | .error cause => Decoded.reject cause
  | .sequence _ _ => Decoded.reject (.wrongType .sequence expected)
  | .mapping _ _ => Decoded.reject (.wrongType .mapping expected)
  | .broken problem => Decoded.reject (.illFormed problem)

/-! ### Scalars -/

/-- A tree taken for a text. -/
def textOf (expected : String) : Tree → Decoded String
  | .scalar _ _ text => .ok text
  | tree => mismatched expected tree

/-- The text of a scalar that may be a value of a kind: a plain one, or a block with the tag of that
kind. -/
def literal? (kind : String) : Tree → Option String
  | .scalar properties style text =>
    if style = .plain || (style = .literal && properties.tag = some (commonTag kind)) then some text
    else none
  | _ => none

/-- A tree taken for a truth value. -/
def booleanOf (tree : Tree) : Decoded Bool :=
  ((literal? "bool" tree).bind truth?).elim (mismatched "a boolean" tree) .ok

/-- A tree taken for a whole number. A minus sign is out of place where negative values are. -/
def integerOf (isSigned : Bool) (expected : String) (tree : Tree) : Decoded Int :=
  match (literal? "int" tree).bind readWhole? with
  | some (negative, magnitude) =>
    let n := signed negative magnitude
    let fits :=
      if isSigned then - twoTo 63 ≤ n ∧ n < twoTo 63
      else ¬ negative ∧ n < twoTo 64
    if fits then .ok n else mismatched expected tree
  | none => mismatched expected tree

/-- A tree taken for a finite number. -/
def realOf (tree : Tree) : Decoded Binary64 :=
  match (literal? "float" tree).bind realMeaning? with
  | some (.real x) => .ok x
  | _ => mismatched "f64" tree

/-! ### Containers -/

/-- Whether a tree stands for an empty container. -/
def isEmpty : Tree → Bool
  | .nothing => true
  | .scalar _ style text => style = .plain && text.isEmpty
  | _ => false

/-- The items of a list. -/
def itemsOf (view : View) : Decoded (List View) :=
  match view.tree with
  | .sequence _ items =>
    if view.room = 0 then Decoded.reject .tooDeep else .ok (items.map view.inside)
  | tree => if isEmpty tree then .ok [] else mismatched "a sequence" tree

/-- The step to the value under a key. -/
def stepOf : Tree → Step
  | .scalar _ _ text => .key text
  | _ => .unnamed

/-- The parts of a record. -/
def partsOf (expected : String) (view : View) : Decoded (Parts View) :=
  match view.tree with
  | .mapping _ entries =>
    if view.room = 0 then Decoded.reject .tooDeep
    else .ok (.named (entries.map fun (key, value) =>
      ⟨textOf "field identifier" (view.inside key).tree, stepOf key, view.inside value⟩))
  | tree => if isEmpty tree then .ok (.named []) else mismatched expected tree

/-! ### Choices and absence -/

/-- The name that a tag of the document's own stands for. -/
def ownName? (properties : Properties) : Option String :=
  properties.tag.bind fun tag =>
    if isOwnTag tag then some (if tag = "!" then tag else String.ofList (tag.toList.drop 1))
    else none

/-- Checks that nothing but a tag is given. -/
def bare : Tree → Decoded Unit
  | .scalar _ style text =>
    if style = .plain ∧ (text.isEmpty ∨ isNullWord text) then .ok ()
    else Decoded.reject (.wrongValue (.text text) "null")
  | tree => mismatched "unit" tree

/-- A tree taken for a choice. -/
def choiceOf (names : List String) (tree : Tree) : Decoded String :=
  let tagged (properties : Properties) (otherwise : Decoded String) : Decoded String :=
    match ownName? properties with
    | some name => do
      let name ← Decoded.known names name
      Decoded.here (bare tree)
      return name
    | none => otherwise.here
  match tree with
  | .scalar properties _ text => tagged properties (Decoded.known names text)
  | .sequence properties _ | .mapping properties _ =>
    tagged properties (mismatched "a YAML tag starting with '!'" tree)
  | tree => Decoded.here (mismatched "a YAML tag starting with '!'" tree)

/-- Whether a tree says that no value is given. -/
def isAbsent : Tree → Decoded Bool
  | .nothing => .ok true
  | .scalar properties style text =>
    if style ≠ .plain then .ok false
    else match properties.tag with
      | none => .ok (text.isEmpty || isNullWord text)
      | some tag =>
        if tag ≠ commonTag "null" then .ok false
        else if isNullWord text then .ok true
        else Decoded.reject (.wrongValue (.text text) "null")
  | .broken problem => Decoded.reject (.illFormed problem)
  | _ => .ok false

/-! ### Values of any kind -/

/-- What is wanted where a value of any kind is. -/
def anyValue : String := "any valid JSON value"

/-- A scalar as a value. Infinities and what is no number have no value. -/
def valueOfScalar (text : String) : Meaning → Decoded Json
  | .nothing | .endless _ => .ok .null
  | .boolean b => .ok (.boolean b)
  | .integer n => .ok (.integer n)
  | .wide _ => Decoded.reject (.refused "JSON number out of range")
  | .real x => .ok (.real x)
  | .text => .ok (.text text)

/-- The members of an object, each read in turn. -/
def membersFrom (anchored : List (Nat × Tree)) (read : Tree → Decoded Json) (expected : String) :
    List (Tree × Tree) → Decoded (List (String × Json))
  | [] => .ok []
  | (key, value) :: rest => do
    let name ← textOf expected (resolve anchored key)
    let member ← (read value).under (stepOf key)
    let others ← membersFrom anchored read "a string" rest
    return (name, member) :: others

/-- The value of a tree; of several members with one key the last counts. A tag of the document's
own has no value. -/
def valueWithin (anchored : List (Nat × Tree)) (room : Nat) (tree : Tree) : Decoded Json :=
  Decoded.here <|
    match room, resolve anchored tree with
    | _, .scalar properties style text =>
      if (ownName? properties).isSome then Decoded.reject (.wrongType .tagged anyValue)
      else match meaning properties.tag style text with
        | .ok meaning => valueOfScalar text meaning
        | .error cause => Decoded.reject cause
    | 0, .sequence properties _ | 0, .mapping properties _ =>
      if (ownName? properties).isSome then Decoded.reject (.wrongType .tagged anyValue)
      else Decoded.reject .tooDeep
    | room + 1, .sequence properties items =>
      if (ownName? properties).isSome then Decoded.reject (.wrongType .tagged anyValue)
      else Json.array <$> Node.listFrom (valueWithin anchored room) 0 items
    | room + 1, .mapping properties entries =>
      if (ownName? properties).isSome then Decoded.reject (.wrongType .tagged anyValue)
      else
        let members := membersFrom anchored (valueWithin anchored room) "a string key" entries
        (Json.object ∘ Dictionary.ofList) <$> members
    | _, .nothing | _, .alias _ => .ok .null
    | _, .broken problem => Decoded.reject (.illFormed problem)

instance : Node View where
  text view := Decoded.here (textOf "a string" view.tree)
  boolean view := Decoded.here (booleanOf view.tree)
  integer isSigned expected view := Decoded.here (integerOf isSigned expected view.tree)
  real view := Decoded.here (realOf view.tree)
  items view := Decoded.here view.itemsOf
  parts expected view := Decoded.here (view.partsOf expected)
  choice names view := choiceOf names view.tree
  isAbsent view := isAbsent view.tree
  value view := valueWithin view.anchored view.room view.tree
  pass view := (view.tree.fault?).elim (.ok ()) fun problem => Decoded.reject (.illFormed problem)
  depth view := view.room + 1

/-- The root of a text, and the fault of what stands behind it. -/
def ofText (text : String) : View × Option Fault :=
  let document := Document.ofText text
  (⟨document.root.anchored.reverse, document.root, depthLimit⟩, document.rest)

end View

end MessageSchema.Yaml
