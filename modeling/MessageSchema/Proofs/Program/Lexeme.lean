import MessageSchema.Binary64.Numeral
import Mathlib.Data.List.Basic

/-!
# The lexemes of a text

A text is read one character at a time. What has been read of a lexeme is kept in a mode, and a
character that does not belong to the lexeme any more completes it and begins the next. Reading two
texts one after the other is reading the first and going on with the second in the mode it ends in,
and so the lexemes of a text that is put together from pieces are found piece by piece.

Which characters beyond ASCII may stand in names is left open. A carriage return may not stand in a
comment, as it may not in a comment that documents a function.

## Main definitions

* `Program.Lexeme`: words, literals and marks.
* `Program.Alphabet`: the characters beyond ASCII that may stand in names.
* `Program.step`, `Program.scan`: reading one character, and reading several.
* `Program.lexemes`: the lexemes of a text.

## Main results

* `Program.scan_append`: reading texts one after the other.
-/

namespace MessageSchema.Program

/-- A lexeme. -/
inductive Lexeme where
  | word (s : String)
  | text (s : String)
  | whole (n : ℕ)
  | real (x : Binary64)
  | mark (c : Char)
  /-- Something that the language does not have. -/
  | fault
deriving DecidableEq, Inhabited

/-- The characters beyond ASCII with which a name may begin or go on. -/
structure Alphabet where
  begins : Char → Bool
  continues : Char → Bool

/-- Whether a name may begin with the character. -/
def Alphabet.isFirst (alphabet : Alphabet) (c : Char) : Bool :=
  c.isAlpha || c == '_' || (128 ≤ c.toNat && alphabet.begins c)

/-- Whether a name may go on with the character. -/
def Alphabet.isFurther (alphabet : Alphabet) (c : Char) : Bool :=
  c.isAlphanum || c == '_' || (128 ≤ c.toNat && alphabet.continues c)

/-- A name. -/
def Alphabet.IsName (alphabet : Alphabet) (s : String) : Prop :=
  ∃ c rest, s.toList = c :: rest ∧ alphabet.isFirst c = true ∧
    ∀ d ∈ rest, alphabet.isFurther d = true

/-- Whether the character separates lexemes and means nothing else. -/
def isBlank (c : Char) : Bool :=
  ['\t', '\n', '\x0B', '\x0C', '\r', ' ', '\u0085', '\u200E', '\u200F', '\u2028', '\u2029'].contains c

/-- What has been read of a lexeme. -/
inductive Mode where
  /-- Nothing. -/
  | between
  /-- A slash, which may begin a comment. -/
  | slash
  | comment
  | word (read : List Char)
  | number (read : List Char)
  /-- A text literal, its escapes resolved. -/
  | text (read : List Char)
  /-- A text literal and the backslash of an escape. -/
  | escape (read : List Char)
  /-- A text literal and the beginning of an escape by number. -/
  | beforeCode (read : List Char)
  | code (read digits : List Char)
deriving DecidableEq

/-- The lexeme of a number. -/
def numberLexeme (read : List Char) : Lexeme :=
  if read.all Char.isDigit then ((readNatural 10 read).map .whole).getD .fault
  else ((readDecimal read).map .real).getD .fault

/-- Whether the character belongs to a number of which some characters have been read. -/
def continuesNumber (read : List Char) (c : Char) : Bool :=
  c.isAlphanum || c == '_' || c == '.' ||
    ((c == '-' || c == '+') && (read.getLast? == some 'e' || read.getLast? == some 'E'))

/-- What a character begins where no lexeme is being read. -/
def starting (alphabet : Alphabet) (c : Char) : List Lexeme × Mode :=
  if c = '/' then ([], .slash)
  else if c = '"' then ([], .text [])
  else if c.isDigit then ([], .number [c])
  else if alphabet.isFirst c then ([], .word [c])
  else if isBlank c then ([], .between)
  else ([.mark c], .between)

/-- The character that an escape of one letter stands for. -/
def escaped? (c : Char) : Option Char :=
  [('0', '\x00'), ('t', '\t'), ('r', '\r'), ('n', '\n'), ('\'', '\''), ('"', '"'),
    ('\\', '\\')].lookup c

/-- The character of a number in an escape. -/
def characterOf? (digits : List Char) : Option Char :=
  if digits.length ≤ 6 then
    (readNatural 16 digits).bind fun n => if n.isValidChar then some (Char.ofNat n) else none
  else none

/-- Reads one character: the lexemes that are complete, and what has been read of the next. -/
def step (alphabet : Alphabet) : Mode → Char → List Lexeme × Mode
  | .between, c => starting alphabet c
  | .slash, c =>
    if c = '/' then ([], .comment)
    else (.mark '/' :: (starting alphabet c).1, (starting alphabet c).2)
  | .comment, c =>
    if c = '\r' then ([.fault], .between)
    else ([], if c = '\n' then .between else .comment)
  | .word read, c =>
    if alphabet.isFurther c then ([], .word (read ++ [c]))
    else (.word (String.ofList read) :: (starting alphabet c).1, (starting alphabet c).2)
  | .number read, c =>
    if continuesNumber read c then ([], .number (read ++ [c]))
    else (numberLexeme read :: (starting alphabet c).1, (starting alphabet c).2)
  | .text read, c =>
    if c = '"' then ([.text (String.ofList read)], .between)
    else if c = '\\' then ([], .escape read)
    else ([], .text (read ++ [c]))
  | .escape read, c =>
    if c = 'u' then ([], .beforeCode read)
    else match escaped? c with
      | some found => ([], .text (read ++ [found]))
      | none => ([.fault], .between)
  | .beforeCode read, c => if c = '\x7b' then ([], .code read []) else ([.fault], .between)
  | .code read digits, c =>
    if c = '\x7d' then
      match characterOf? digits with
      | some found => ([], .text (read ++ [found]))
      | none => ([.fault], .between)
    else ([], .code read (digits ++ [c]))

/-- Reads characters in turn. -/
def scan (alphabet : Alphabet) : Mode → List Char → List Lexeme × Mode
  | mode, [] => ([], mode)
  | mode, c :: rest =>
    let (found, mode) := step alphabet mode c
    let (others, mode) := scan alphabet mode rest
    (found ++ others, mode)

/-- The lexeme that the end of a text completes. -/
def finish : Mode → List Lexeme
  | .between | .comment => []
  | .slash => [.mark '/']
  | .word read => [.word (String.ofList read)]
  | .number read => [numberLexeme read]
  | _ => [.fault]

/-- The lexemes of a text. -/
def lexemes (alphabet : Alphabet) (text : String) : List Lexeme :=
  let (found, mode) := scan alphabet .between text.toList
  found ++ finish mode

variable {alphabet : Alphabet}

theorem scan_cons (mode : Mode) (c : Char) (rest : List Char) :
    scan alphabet mode (c :: rest) =
      ((step alphabet mode c).1 ++ (scan alphabet (step alphabet mode c).2 rest).1,
        (scan alphabet (step alphabet mode c).2 rest).2) := rfl

/-- **Reading texts one after the other.** -/
theorem scan_append (mode : Mode) (cs cs' : List Char) :
    scan alphabet mode (cs ++ cs') =
      ((scan alphabet mode cs).1 ++ (scan alphabet (scan alphabet mode cs).2 cs').1,
        (scan alphabet (scan alphabet mode cs).2 cs').2) := by
  induction cs generalizing mode with
  | nil => simp [scan]
  | cons c rest ih => simp [scan_cons, ih]

end MessageSchema.Program
