import MessageSchema.Text.Cut
import MessageSchema.Text.Quoted

/-!
# Why a document is rejected

A rejection carries its cause as data and, once it is known, the place in the document that it is
about. The wording of a cause is one function of it.

## Main definitions

* `Found`: what stands at a place where something else is wanted.
* `Cause`: why a document is rejected; `Cause.message` is its wording.
* `Rejection`: a cause and its place; `Rejection.message` names the place in front of the cause.
-/

namespace MessageSchema

/-- What stands at a place where something else is wanted. -/
inductive Found where
  | boolean (b : Bool)
  | integer (n : Int)
  /-- An integer beyond 64 bits. -/
  | wide (n : Int)
  | real (shown : String)
  | text (s : String)
  /-- No value, under the name that the notation has for it. -/
  | nothing (shown : String)
  | sequence
  | mapping
  /-- A value with a tag. -/
  | tagged
deriving Inhabited

/-- What was found, in words. -/
def Found.words : Found → String
  | .boolean b => "boolean `" ++ (if b then "true" else "false") ++ "`"
  | .integer n => "integer `" ++ toString n ++ "`"
  | .wide n => "integer `" ++ toString n ++ "` as " ++ (if n < 0 then "i128" else "u128")
  | .real shown => "floating point `" ++ shown ++ "`"
  | .text s => "string " ++ Text.quote s
  | .nothing shown => shown
  | .sequence => "sequence"
  | .mapping => "map"
  | .tagged => "enum"

/-- Why a document is rejected. -/
inductive Cause where
  | wrongType (found : Found) (expected : String)
  | wrongValue (found : Found) (expected : String)
  | wrongLength (length : Nat) (expected : String)
  | missingField (name : String)
  | duplicateField (name : String)
  | unknownField (name : String) (known : List String)
  | unknownVariant (name : String) (known : List String)
  /-- A value that the rule for its field refuses. -/
  | refused (reason : String)
  | tooDeep
  /-- The text is not well formed. -/
  | illFormed (fault : String)
deriving Inhabited

namespace Cause

/-- Names in backquotes: one, two with a conjunction, or a list. -/
def choices (names : List String) : String :=
  let quoted := names.map fun name => "`" ++ name ++ "`"
  match quoted with
  | [one] => one
  | [one, other] => one ++ " or " ++ other
  | all => "one of " ++ Text.joined ", " all

/-- The wording of a cause. -/
def message : Cause → String
  | .wrongType found expected => "invalid type: " ++ found.words ++ ", expected " ++ expected
  | .wrongValue found expected => "invalid value: " ++ found.words ++ ", expected " ++ expected
  | .wrongLength length expected =>
    "invalid length " ++ toString length ++ ", expected " ++ expected
  | .missingField name => "missing field `" ++ name ++ "`"
  | .duplicateField name => "duplicate field `" ++ name ++ "`"
  | .unknownField name known => "unknown field `" ++ name ++ "`, expected " ++ choices known
  | .unknownVariant name known => "unknown variant `" ++ name ++ "`, expected " ++ choices known
  | .refused reason => reason
  | .tooDeep => "recursion limit exceeded"
  | .illFormed fault => fault

/-- Whether the text itself is at fault, and not what it says. -/
def isIllFormed : Cause → Bool
  | .illFormed _ => true
  | _ => false

/-- Whether the place of the cause is named with it. -/
def hasPlace : Cause → Bool
  | .illFormed _ | .tooDeep => false
  | _ => true

end Cause

/-- One step into a document. -/
inductive Step where
  | key (name : String)
  | index (n : Nat)
  /-- Into a value whose key is no text. -/
  | unnamed
deriving DecidableEq, Inhabited

/-- A cause and the place it is about, given by the steps that lead there; nothing until the place
is known. -/
structure Rejection where
  cause : Cause
  place : Option (List Step)
deriving Inhabited

namespace Rejection

/-- A cause whose place is not known yet. -/
def ofCause (cause : Cause) : Rejection :=
  ⟨cause, none⟩

/-- The same rejection at the current place, unless its place is known. -/
def here (rejection : Rejection) : Rejection :=
  match rejection.place with
  | none => if rejection.cause.hasPlace then ⟨rejection.cause, some []⟩ else rejection
  | some _ => rejection

/-- The same rejection as seen from one step further out. -/
def under (step : Step) (rejection : Rejection) : Rejection :=
  ⟨rejection.cause, rejection.place.map (step :: ·)⟩

/-- The text of a place: names with dots between them, positions in brackets. -/
def placeText : List Step → String
  | [] => ""
  | .index n :: rest => "[" ++ toString n ++ "]" ++ placeText rest
  | .key name :: rest => "." ++ name ++ placeText rest
  | .unnamed :: rest => ".?" ++ placeText rest

/-- The place, where it is known and not the whole document, and the cause. -/
def message (rejection : Rejection) : String :=
  match rejection.place with
  | none | some [] => rejection.cause.message
  | some (.key name :: rest) => name ++ placeText rest ++ ": " ++ rejection.cause.message
  | some (.unnamed :: rest) => "?" ++ placeText rest ++ ": " ++ rejection.cause.message
  | some steps => "." ++ placeText steps ++ ": " ++ rejection.cause.message

end Rejection

/-- A result that may be a rejection. -/
abbrev Decoded (α : Type) := Except Rejection α

namespace Decoded

variable {α : Type}

/-- Rejects for a cause whose place is left to the reader of the enclosing node. -/
def reject (cause : Cause) : Decoded α :=
  .error (.ofCause cause)

/-- The result of reading the current node: a rejection without a place is about this node. -/
def here (result : Decoded α) : Decoded α :=
  result.mapError Rejection.here

/-- The result of reading a part one step further in. -/
def under (step : Step) (result : Decoded α) : Decoded α :=
  result.mapError (Rejection.under step)

end Decoded

end MessageSchema
