import MessageSchema.Json.Number

/-!
# Tokens of JSON text

A text is cut into tokens up to its end or its first fault. Two kinds of token are well delimited
but have no value: a number out of range, and a text with an escape that names no character.

## Main definitions

* `Json.Token`: a token.
* `Json.Token.scan`: the tokens of a text; a fault is the last of them.
-/

namespace MessageSchema.Json

/-- A token. -/
inductive Token
  | beginArray
  | endArray
  | beginObject
  | endObject
  | comma
  | colon
  /-- One of the three literal names or a number; nothing for a number out of range. -/
  | scalar (value : Option Json)
  /-- A text; nothing if an escape in it names no character. -/
  | text (value : Option String)
  /-- The text breaks off or has no token here. -/
  | fault

/-- The code unit of four hexadecimal digits. -/
def codeUnit? (digits : List Char) : Option Nat :=
  digitsValue 16 digits

/-- The character of a code unit that is no surrogate, or of a pair of surrogates. -/
def charOfUnits (high : Nat) (low : Option Nat) : Option Char :=
  match low with
  | none => if 0xD800 ≤ high ∧ high ≤ 0xDFFF then none else some (Char.ofNat high)
  | some low =>
    if 0xD800 ≤ high ∧ high < 0xDC00 ∧ 0xDC00 ≤ low ∧ low ≤ 0xDFFF then
      some (Char.ofNat (0x10000 + (high - 0xD800) * 0x400 + (low - 0xDC00)))
    else none

/-- The character that a single letter behind a backslash stands for. -/
def shortEscape? : Char → Option Char
  | '"' => some '"'
  | '\\' => some '\\'
  | '/' => some '/'
  | 'b' => some '\x08'
  | 'f' => some '\x0c'
  | 'n' => some '\n'
  | 'r' => some '\r'
  | 't' => some '\t'
  | _ => none

/-- The rest of a text behind its opening quote: its characters, unless an escape names none, and
what follows the closing quote. Nothing if the text breaks off or holds a control character. -/
def readQuoted : List Char → Option (List Char) → Option (Option String × List Char)
  | '"' :: rest, acc => some (acc.map (String.ofList ·.reverse), rest)
  | '\\' :: 'u' :: a :: b :: c :: d :: '\\' :: 'u' :: e :: f :: g :: h :: rest, acc =>
    match codeUnit? [a, b, c, d] with
    | none => none
    | some high =>
      match charOfUnits high (codeUnit? [e, f, g, h]), charOfUnits high none with
      | some ch, _ => readQuoted rest (acc.map (ch :: ·))
      | none, some ch => readQuoted ('\\' :: 'u' :: e :: f :: g :: h :: rest) (acc.map (ch :: ·))
      | none, none => readQuoted ('\\' :: 'u' :: e :: f :: g :: h :: rest) none
  | '\\' :: 'u' :: a :: b :: c :: d :: rest, acc =>
    match codeUnit? [a, b, c, d] with
    | none => none
    | some unit =>
      match charOfUnits unit none with
      | some ch => readQuoted rest (acc.map (ch :: ·))
      | none => readQuoted rest none
  | '\\' :: e :: rest, acc =>
    match shortEscape? e with
    | some ch => readQuoted rest (acc.map (ch :: ·))
    | none => none
  | c :: rest, acc => if c.toNat < 0x20 ∨ c = '\\' then none else readQuoted rest (acc.map (c :: ·))
  | [], _ => none

namespace Token

/-- White space between tokens. -/
def isSpace (c : Char) : Bool :=
  c == ' ' || c == '\n' || c == '\t' || c == '\r'

/-- The token at the start of a text that is not empty, and what follows it. -/
def next : List Char → Token × List Char
  | '[' :: rest => (.beginArray, rest)
  | ']' :: rest => (.endArray, rest)
  | '\x7b' :: rest => (.beginObject, rest)
  | '\x7d' :: rest => (.endObject, rest)
  | ',' :: rest => (.comma, rest)
  | ':' :: rest => (.colon, rest)
  | 'n' :: 'u' :: 'l' :: 'l' :: rest => (.scalar (some .null), rest)
  | 't' :: 'r' :: 'u' :: 'e' :: rest => (.scalar (some (.boolean true)), rest)
  | 'f' :: 'a' :: 'l' :: 's' :: 'e' :: rest => (.scalar (some (.boolean false)), rest)
  | '"' :: rest =>
    match readQuoted rest (some []) with
    | some (value, rest) => (.text value, rest)
    | none => (.fault, [])
  | cs =>
    match Numeral.read? cs with
    | some (numeral, rest) => (.scalar numeral.value?, rest)
    | none => (.fault, [])

/-- The tokens of a text, gathered in reverse. Every token takes at least one character, so that
as many steps as characters suffice. -/
def scanWithin : Nat → List Char → List Token → List Token
  | 0, _, acc => acc.reverse
  | fuel + 1, cs, acc =>
    match cs.dropWhile isSpace with
    | [] => acc.reverse
    | c :: rest =>
      match next (c :: rest) with
      | (.fault, _) => (.fault :: acc).reverse
      | (token, rest) => scanWithin fuel rest (token :: acc)

/-- The tokens of a text. -/
def scan (text : String) : List Token :=
  let cs := text.toList
  scanWithin (cs.length + 1) cs []

end Token

end MessageSchema.Json
