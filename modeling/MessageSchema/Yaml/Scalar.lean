import MessageSchema.Binary64.Layout
import MessageSchema.Document.Rejection
import MessageSchema.Yaml.Tree

/-!
# What a scalar means

A plain scalar may be the word for nothing, a truth value or a number; every other scalar is a text.
A tag of the common kind fixes what a scalar has to be.

## Main definitions

* `Yaml.readWhole?`: a whole number in one of four bases.
* `Yaml.Meaning`: what a scalar may mean.
* `Yaml.plainMeaning`, `Yaml.meaning`: the meaning of a plain scalar, and of any scalar.
-/

namespace MessageSchema.Yaml

/-! ### Words and numbers -/

/-- Whether a text is a word for nothing. -/
def isNullWord (text : String) : Bool :=
  ["null", "Null", "NULL", "~"].contains text

/-- The truth value that a text is a word for. -/
def truth? (text : String) : Option Bool :=
  if ["true", "True", "TRUE"].contains text then some true
  else if ["false", "False", "FALSE"].contains text then some false
  else none

/-- A number without a sign: behind a mark in base 16, 8 or 2, else in base 10, where no zero may
stand in front of other digits. -/
def readMagnitude? (cs : List Char) : Option Nat :=
  let read (base : Nat) (digits : List Char) : Option Nat :=
    if digits.isEmpty then none else digitsValue base digits
  match cs with
  | '0' :: 'x' :: digits => read 16 digits
  | '0' :: 'o' :: digits => read 8 digits
  | '0' :: 'b' :: digits => read 2 digits
  | '0' :: _ :: _ => none
  | digits => read 10 digits

/-- A whole number: whether it has a minus sign, and its magnitude. -/
def readWhole? (text : String) : Option (Bool × Nat) :=
  match text.toList with
  | '-' :: cs => (readMagnitude? cs).map (true, ·)
  | '+' :: cs => (readMagnitude? cs).map (false, ·)
  | cs => (readMagnitude? cs).map (false, ·)

/-- A whole number with its sign. -/
def signed (negative : Bool) (magnitude : Nat) : Int :=
  if negative then - Int.ofNat magnitude else magnitude

/-- Whether a text is digits behind a zero, with or without a sign, which is no number. -/
def isZeroFilled (text : String) : Bool :=
  let cs := text.toList
  match (if cs.head? = some '-' || cs.head? = some '+' then cs.drop 1 else cs) with
  | '0' :: d :: rest => (d :: rest).all Char.isDigit
  | _ => false

/-! ### Meanings -/

/-- What a scalar may mean. -/
inductive Meaning where
  | nothing
  | boolean (b : Bool)
  | integer (n : Int)
  /-- A whole number beyond 64 bits. -/
  | wide (n : Int)
  | real (x : Binary64)
  /-- An infinity or no number. -/
  | endless (shown : String)
  | text

/-- The whole number that a text means, of up to 128 bits. -/
def wholeMeaning? (text : String) : Option Meaning := do
  let (negative, magnitude) ← readWhole? text
  if magnitude < twoTo 64 ∧ ¬ negative ∨ magnitude ≤ twoTo 63 then
    some (.integer (signed negative magnitude))
  else if magnitude < twoTo 128 ∧ ¬ negative ∨ magnitude ≤ twoTo 127 then
    some (.wide (signed negative magnitude))
  else none

/-- The number that a text means. -/
def realMeaning? (text : String) : Option Meaning :=
  if [".inf", ".Inf", ".INF", "+.inf", "+.Inf", "+.INF"].contains text then some (.endless "inf")
  else if ["-.inf", "-.Inf", "-.INF"].contains text then some (.endless "-inf")
  else if [".nan", ".NaN", ".NAN"].contains text then some (.endless "NaN")
  else (readDecimal text.toList).map .real

/-- What a plain scalar means. -/
def plainMeaning (text : String) : Meaning :=
  if text.isEmpty || isNullWord text then .nothing
  else match truth? text, wholeMeaning? text with
    | some b, _ => .boolean b
    | none, some whole => whole
    | none, none =>
      if isZeroFilled text then .text else (realMeaning? text).getD .text

/-- The common tag of a kind of scalars. -/
def commonTag (kind : String) : String :=
  "tag:yaml.org,2002:" ++ kind

/-- Whether a tag is one of the document's own, and not a common one. -/
def isOwnTag (tag : String) : Bool :=
  tag.toList.head? = some '!'

/-- What a scalar means, or why its tag does not allow it. -/
def meaning (tag : Option String) (style : Style) (text : String) : Except Cause Meaning :=
  let only (expected : String) (meaning : Option Meaning) : Except Cause Meaning :=
    meaning.elim (.error (.wrongValue (.text text) expected)) .ok
  let written := if style = .plain then plainMeaning text else .text
  match tag with
  | none => .ok written
  | some tag =>
    if tag = commonTag "bool" then only "a boolean" ((truth? text).map .boolean)
    else if tag = commonTag "int" then only "an integer" (wholeMeaning? text)
    else if tag = commonTag "float" then only "a float" (realMeaning? text)
    else if tag = commonTag "null" then
      only "null" (if isNullWord text then some .nothing else none)
    else .ok (if isOwnTag tag then written else .text)

/-- A meaning as it is named where something else is wanted. -/
def Meaning.found (text : String) : Meaning → Found
  | .nothing => .nothing "unit value"
  | .boolean b => .boolean b
  | .integer n => .integer n
  | .wide n => .wide n
  | .real x => .real (NumberLayout.pointed.text x)
  | .endless shown => .real shown
  | .text => .text text

end MessageSchema.Yaml
