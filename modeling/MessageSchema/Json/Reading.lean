import MessageSchema.Json.Token

/-!
# JSON text as it is met by a reader

A reader of a text meets its parts in order and stops at the first fault. A `Reading` is the tree
of what is met, with a mark at the place where the text breaks off, so that a fault of the content
that stands earlier is found first. Parts that are well delimited but have no value are marked too:
they may be passed over, but not read.

## Main definitions

* `Json.Reading`: the tree.
* `Json.Reading.ofText`: the tree of a text, and whether nothing but space follows it.
* `Json.Reading.value?`: the value of a tree without marks, containers nesting to a limit.
* `Json.parse?`: the value of a text.
-/

namespace MessageSchema.Json

/-- A tree of what a reader meets. -/
inductive Reading where
  | scalar (value : Json)
  | array (items : List Reading)
  | object (members : List (Option String × Reading))
  /-- Delimited, but without a value. -/
  | valueless
  /-- Nothing more can be read from here on. -/
  | broken
deriving Inhabited

namespace Reading

/-- A container that is being read: what it holds so far in reverse, and the key whose value comes
next. -/
inductive Frame where
  | items (done : List Reading)
  | members (done : List (Option String × Reading)) (key : Option String)

/-- What may come next. -/
inductive Phase
  | value
  | valueOrEnd
  | key
  | keyOrEnd
  | colon
  | commaOrEnd

/-- The container with one more part. -/
def Frame.add (part : Reading) : Frame → Frame
  | .items done => .items (part :: done)
  | .members done key => .members ((key, part) :: done) none

/-- The finished container. -/
def Frame.close : Frame → Reading
  | .items done => .array done.reverse
  | .members done _ => .object done.reverse

/-- The tree of the open containers, the innermost first, around a last part. -/
def closeAll (part : Reading) : List Frame → Reading
  | [] => part
  | frame :: frames => closeAll (frame.add part).close frames

/-- Reads tokens until the tree is complete or the text breaks off. The tokens behind the tree are
returned with it. -/
def build : List Token → List Frame → Phase → Reading × List Token
  | [], frames, _ => (closeAll .broken frames, [])
  | token :: rest, frames, phase =>
    let complete (part : Reading) (frames : List Frame) : Reading × List Token :=
      match frames with
      | [] => (part, rest)
      | frame :: frames => build rest (frame.add part :: frames) .commaOrEnd
    match phase, token, frames with
    | .valueOrEnd, .endArray, frame :: frames => complete frame.close frames
    | .keyOrEnd, .endObject, frame :: frames => complete frame.close frames
    | .key, .text key, .members done _ :: frames
    | .keyOrEnd, .text key, .members done _ :: frames =>
      build rest (.members done key :: frames) .colon
    | .colon, .colon, _ => build rest frames .value
    | .commaOrEnd, .comma, .items _ :: _ => build rest frames .value
    | .commaOrEnd, .comma, .members _ _ :: _ => build rest frames .key
    | .commaOrEnd, .endArray, .items done :: frames => complete (Frame.items done).close frames
    | .commaOrEnd, .endObject, .members done key :: frames =>
      complete (Frame.members done key).close frames
    | .value, token, _ | .valueOrEnd, token, _ =>
      match token with
      | .beginArray => build rest (.items [] :: frames) .valueOrEnd
      | .beginObject => build rest (.members [] none :: frames) .keyOrEnd
      | .scalar (some value) => complete (.scalar value) frames
      | .scalar none | .text none => complete .valueless frames
      | .text (some s) => complete (.scalar (.text s)) frames
      | _ => (closeAll .broken frames, [])
    | _, _, _ => (closeAll .broken frames, [])

/-- The tree of a text, and whether nothing follows it. -/
def ofText (text : String) : Reading × Bool :=
  let (tree, rest) := build (Token.scan text) [] .value
  (tree, rest.isEmpty)

mutual

/-- Whether a reader that passes over the tree gets to its end. -/
def isWhole : Reading → Bool
  | .broken => false
  | .array items => areWhole items
  | .object members => areWholeMembers members
  | _ => true

/-- Whether a reader gets to the end of every item. -/
def areWhole : List Reading → Bool
  | [] => true
  | item :: rest => isWhole item && areWhole rest

/-- Whether a reader gets to the end of every member. -/
def areWholeMembers : List (Option String × Reading) → Bool
  | [] => true
  | (_, value) :: rest => isWhole value && areWholeMembers rest

end

mutual

/-- The value of a tree in which containers nest no deeper than the limit; of several members with
one key the last counts. -/
def value? (limit : Nat) : Reading → Option Json
  | .scalar value => some value
  | .array items =>
    if limit = 0 then none else (values? (limit - 1) items).map .array
  | .object members =>
    if limit = 0 then none
    else (memberValues? (limit - 1) members).map (.object ∘ Dictionary.ofList)
  | _ => none

/-- The values of all items. -/
def values? (limit : Nat) : List Reading → Option (List Json)
  | [] => some []
  | item :: rest => do some ((← value? limit item) :: (← values? limit rest))

/-- The keys and values of all members. -/
def memberValues? (limit : Nat) : List (Option String × Reading) → Option (List (String × Json))
  | [] => some []
  | (key, value) :: rest => do
    some ((← key, ← value? limit value) :: (← memberValues? limit rest))

end

end Reading

/-- How deep containers may nest in a text. -/
def depthLimit : Nat := 127

/-- The value of a text. -/
def parse? (text : String) : Option Json :=
  let (tree, whole) := Reading.ofText text
  if whole then tree.value? depthLimit else none

end MessageSchema.Json
