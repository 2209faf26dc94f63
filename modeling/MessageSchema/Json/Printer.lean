import MessageSchema.Binary64.Layout
import MessageSchema.Json.Value

/-!
# JSON text of a value

Two spellings of a value: on one line without any space, and on several lines with an indentation
of two spaces per level, where an empty container stays on its line.

## Main definitions

* `Json.compact`, `Json.pretty`: the two spellings.
-/

namespace MessageSchema.Json

/-- One character inside quotes: short escapes where there are any, else the code unit of a control
character. -/
def escapeChar (c : Char) : List Char :=
  match c with
  | '"' => ['\\', '"']
  | '\\' => ['\\', '\\']
  | '\x08' => ['\\', 'b']
  | '\x0c' => ['\\', 'f']
  | '\n' => ['\\', 'n']
  | '\r' => ['\\', 'r']
  | '\t' => ['\\', 't']
  | c =>
    if c.toNat < 0x20 then
      ['\\', 'u', '0', '0', Nat.digitChar (c.toNat / 16), Nat.digitChar (c.toNat % 16)]
    else [c]

/-- A text between quotes. -/
def quoteText (s : String) : String :=
  String.ofList ('"' :: s.toList.flatMap escapeChar ++ ['"'])

/-- The text of a value that is no container. -/
def scalarText : Json → String
  | .boolean true => "true"
  | .boolean false => "false"
  | .integer n => toString n
  | .real x => NumberLayout.document.text x
  | .text s => quoteText s
  | _ => "null"

mutual

/-- The text of a value on one line. -/
def compact : Json → String
  | .array items => "[" ++ ",".intercalate (compactItems items) ++ "]"
  | .object members => "\x7b" ++ ",".intercalate (compactMembers members) ++ "\x7d"
  | value => scalarText value

/-- The texts of the items of an array. -/
def compactItems : List Json → List String
  | [] => []
  | item :: rest => compact item :: compactItems rest

/-- The texts of the members of an object. -/
def compactMembers : List (String × Json) → List String
  | [] => []
  | (key, value) :: rest => (quoteText key ++ ":" ++ compact value) :: compactMembers rest

end

/-- The indentation of a level. -/
def indentation (level : Nat) : String :=
  String.ofList (List.replicate (2 * level) ' ')

/-- Parts on lines of their own one level further in, between brackets. -/
def laidOut (level : Nat) (opening closing : String) (parts : List String) : String :=
  if parts.isEmpty then opening ++ closing
  else
    let line := "\n" ++ indentation (level + 1)
    opening ++ line ++ ("," ++ line).intercalate parts ++ "\n" ++ indentation level ++ closing

mutual

/-- The text of a value on several lines, its first line standing at a level. -/
def prettyAt (level : Nat) : Json → String
  | .array items => laidOut level "[" "]" (prettyItems (level + 1) items)
  | .object members => laidOut level "\x7b" "\x7d" (prettyMembers (level + 1) members)
  | value => scalarText value

/-- The texts of the items of an array. -/
def prettyItems (level : Nat) : List Json → List String
  | [] => []
  | item :: rest => prettyAt level item :: prettyItems level rest

/-- The texts of the members of an object. -/
def prettyMembers (level : Nat) : List (String × Json) → List String
  | [] => []
  | (key, value) :: rest =>
    (quoteText key ++ ": " ++ prettyAt level value) :: prettyMembers level rest

end

/-- The text of a value on several lines. -/
def pretty (value : Json) : String :=
  prettyAt 0 value

end MessageSchema.Json
