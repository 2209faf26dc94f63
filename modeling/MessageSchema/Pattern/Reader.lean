import MessageSchema.Binary64.Numeral
import MessageSchema.Pattern.Basic
import MessageSchema.Text.Cut
import MessageSchema.Text.Letter

/-!
# Reading patterns

Reads the tree of a regular expression, or nothing where the text is none. In spaced text, white
space and comments between the parts of an expression are skipped.

## Main definitions

* `Pattern.read?`: the expression that a text is.
-/

namespace MessageSchema.Pattern

/-! ### Characters and space -/

/-- The text behind a comment, which ends with its line. -/
def afterComment : List Char → List Char
  | [] => []
  | c :: rest => if c = '\n' then rest else afterComment rest

theorem length_afterComment_le (cs : List Char) : (afterComment cs).length ≤ cs.length := by
  induction cs with
  | nil => simp [afterComment]
  | cons c rest ih =>
    unfold afterComment
    split
    · simp
    · simp only [List.length_cons]
      omega

/-- The text behind white space and comments. -/
def afterSpace : List Char → List Char
  | [] => []
  | c :: rest =>
    if Text.isBlank c then afterSpace rest
    else if c = '#' then afterSpace (afterComment rest)
    else c :: rest
  termination_by cs => cs.length
  decreasing_by
    · simp
    · have := length_afterComment_le rest
      simp only [List.length_cons]
      omega

/-- The text behind what may be skipped. -/
def skip (spaced : Bool) (cs : List Char) : List Char :=
  if spaced then afterSpace cs else cs

/-- The character that comes next if the text is looked at without being read. A comment is passed
over only as far as its first character that is no white space. -/
def peek (spaced : Bool) (cs : List Char) : Option Char :=
  if spaced then
    match cs.dropWhile Text.isBlank with
    | '#' :: rest => (rest.dropWhile Text.isBlank).head?
    | rest => rest.head?
  else cs.head?

/-! ### Escapes -/

/-- Characters with a meaning of their own somewhere in a pattern. -/
def isMeta (c : Char) : Bool :=
  "\\.+*?()|[]\x7b\x7d^$#&-~".toList.contains c

/-- ASCII characters that may follow a backslash and then stand for themselves. -/
def isEscapable (c : Char) : Bool :=
  isMeta c || (c.toNat < 0x80 && !c.isAlphanum && c != '<' && c != '>')

/-- What an escape stands for, as a part of an expression. -/
inductive Escaped
  | char (c : PatternChar)
  | standard (negated : Bool)
  | property (name : PropertyName)
  | assertion

/-- The character with a code given in hexadecimal digits. -/
def charOfDigits (digits : List Char) : Option Char := do
  if digits.isEmpty then none
  let n ← digitsValue 16 digits
  let c := Char.ofNat n
  if c.toNat = n then some c else none

/-- As many hexadecimal digits. -/
def readDigits (spaced : Bool) : Nat → List Char → Option (List Char × List Char)
  | 0, cs => some ([], cs)
  | n + 1, cs => match cs with
    | c :: rest => do
      if (digitValue 16 c).isNone then none
      let (digits, rest) ← readDigits spaced n (skip spaced rest)
      some (c :: digits, rest)
    | [] => none

/-- The characters up to a closing brace. -/
def readBraced (spaced : Bool) : Nat → List Char → Option (List Char × List Char)
  | 0, _ => none
  | fuel + 1, cs => match skip spaced cs with
    | [] => none
    | '\x7d' :: rest => some ([], rest)
    | c :: rest => do
      let (inside, rest) ← readBraced spaced fuel rest
      some (c :: inside, rest)

/-- A character by its code, behind the letter of the escape. -/
def readCode (spaced : Bool) (width : Nat) (cs : List Char) : Option (Escaped × List Char) :=
  match skip spaced cs with
  | '\x7b' :: rest => do
    let (digits, rest) ← readBraced spaced (rest.length + 1) rest
    some (.char ⟨← charOfDigits digits, false⟩, skip spaced rest)
  | cs => do
    let (digits, rest) ← readDigits spaced width cs
    some (.char ⟨← charOfDigits digits, width = 2⟩, rest)

/-- The name of a property between braces: with a value behind `!=`, `:` or `=`, or by itself. -/
def propertyName (name : List Char) : PropertyName :=
  match Text.splitFirst? ['!', '='] name with
  | some (before, behind) => .withValue before behind
  | none => match Text.splitFirst? [':'] name with
    | some (before, behind) => .withValue before behind
    | none => match Text.splitFirst? ['='] name with
      | some (before, behind) => .withValue before behind
      | none => .single name

/-- A property, behind the letter of the escape. -/
def readProperty (spaced : Bool) (cs : List Char) : Option (Escaped × List Char) :=
  match skip spaced cs with
  | [] => none
  | '\\' :: _ => none
  | '\x7b' :: rest => do
    let (name, rest) ← readBraced spaced (rest.length + 1) rest
    some (.property (propertyName name), rest)
  | c :: rest => some (.property (.single [c]), skip spaced rest)

/-- The characters of the name of a special word boundary. -/
def isBoundaryChar (c : Char) : Bool :=
  c.isAlpha || c = '-'

/-- Letters and hyphens, and what follows them. -/
def readBoundaryName (spaced : Bool) : Nat → List Char → List Char × List Char
  | 0, cs => ([], cs)
  | fuel + 1, cs => match cs with
    | c :: rest =>
      if isBoundaryChar c then
        let (name, rest) := readBoundaryName spaced fuel (skip spaced rest)
        (c :: name, rest)
      else ([], cs)
    | [] => ([], [])

/-- What follows the letter of a word boundary: a name in braces, if there is one. Braces around
anything else are left to be read as a repetition. -/
def readBoundary (spaced : Bool) (cs : List Char) : Option (List Char) :=
  match cs with
  | '\x7b' :: rest =>
    match skip spaced rest with
    | [] => none
    | c :: inside =>
      if isBoundaryChar c then
        let (name, rest) := readBoundaryName spaced (inside.length + 2) (c :: inside)
        match rest with
        | '\x7d' :: rest =>
          if ["start", "end", "start-half", "end-half"].contains (String.ofList name) then some rest
          else none
        | _ => none
      else some cs
  | _ => some cs

/-- What an escape stands for, and what follows it; the backslash is read already. -/
def readEscape (spaced : Bool) : List Char → Option (Escaped × List Char)
  | [] => none
  | 'x' :: rest => readCode spaced 2 rest
  | 'u' :: rest => readCode spaced 4 rest
  | 'U' :: rest => readCode spaced 8 rest
  | 'p' :: rest | 'P' :: rest => readProperty spaced rest
  | 'd' :: rest | 's' :: rest | 'w' :: rest => some (.standard false, rest)
  | 'D' :: rest | 'S' :: rest | 'W' :: rest => some (.standard true, rest)
  | 'b' :: rest => (readBoundary spaced rest).map (.assertion, ·)
  | c :: rest =>
    if isEscapable c then some (.char ⟨c, false⟩, rest)
    else match c with
      | 'a' => some (.char ⟨'\x07', false⟩, rest)
      | 'f' => some (.char ⟨'\x0c', false⟩, rest)
      | 't' => some (.char ⟨'\t', false⟩, rest)
      | 'n' => some (.char ⟨'\n', false⟩, rest)
      | 'r' => some (.char ⟨'\r', false⟩, rest)
      | 'v' => some (.char ⟨'\x0b', false⟩, rest)
      | 'A' | 'z' | 'B' | '<' | '>' => some (.assertion, rest)
      | _ => none

/-! ### Bracketed classes -/

/-- The names of the classes of ASCII. -/
def asciiClasses : List String :=
  ["alnum", "alpha", "ascii", "blank", "cntrl", "digit", "graph", "lower", "print", "punct",
    "space", "upper", "word", "xdigit"]

/-- A class of ASCII by name, behind its opening bracket. -/
def readAsciiClass? : List Char → Option (Bool × List Char)
  | ':' :: rest =>
    let (negated, rest) := match rest with
      | '^' :: rest => (true, rest)
      | _ => (false, rest)
    match rest.dropWhile (· ≠ ':') with
    | ':' :: ']' :: after =>
      if asciiClasses.contains (String.ofList (rest.takeWhile (· ≠ ':'))) then some (negated, after)
      else none
    | _ => none
  | _ => none

/-- The start of a class behind its opening bracket: a negation, then hyphens that stand for
themselves, or else a closing bracket that does. -/
def readClassStart (spaced : Bool) (cs : List Char) : Bool × List CharSet × List Char :=
  let cs := skip spaced cs
  let (negated, cs) := match cs with
    | '^' :: rest => (true, skip spaced rest)
    | _ => (false, cs)
  let rec hyphens : Nat → List Char → List CharSet × List Char
    | 0, cs => ([], cs)
    | fuel + 1, cs => match cs with
      | '-' :: rest =>
        let (items, rest) := hyphens fuel (skip spaced rest)
        (.char ⟨'-', false⟩ :: items, rest)
      | _ => ([], cs)
  let (items, rest) := hyphens (cs.length + 1) cs
  match items, rest with
  | [], ']' :: rest => (negated, [.char ⟨']', false⟩], skip spaced rest)
  | _, _ => (negated, items, rest)

/-- One character or escape inside a class. -/
def readClassPart (spaced : Bool) : List Char → Option (Escaped × List Char)
  | [] => none
  | '\\' :: rest => readEscape spaced rest
  | c :: rest => some (.char ⟨c, false⟩, rest)

/-- What a part stands for by itself inside a class. -/
def Escaped.toCharSet : Escaped → Option CharSet
  | .char c => some (.char c)
  | .standard negated => some (.standard negated)
  | .property name => some (.property name)
  | .assertion => none

/-- An item inside a class: a part, or a range between two characters. -/
def readClassItem (spaced : Bool) (cs : List Char) : Option (CharSet × List Char) := do
  let (first, rest) ← readClassPart spaced cs
  match skip spaced rest with
  | [] => none
  | '-' :: rest =>
    let next := peek spaced rest
    if next = some ']' ∨ next = some '-' then some (← first.toCharSet, '-' :: rest)
    else
      let (last, rest) ← readClassPart spaced (skip spaced rest)
      match first, last with
      | .char first, .char last =>
        if first.char ≤ last.char then some (.range first last, rest) else none
      | _, _ => none
  | rest => some (← first.toCharSet, rest)

/-- What stands in front of the operands read last: nothing, or an operator's left side. -/
def combine (left : Option CharSet) (items : List CharSet) : CharSet :=
  let right := CharSet.ofItems items.reverse
  left.elim right (.combination · right)

/-- Reads a class up to its closing bracket. `left` is what stands on the left of the last operator,
`items` are the items since then, in reverse. -/
def readClass (spaced : Bool) :
    Nat → Option CharSet → List CharSet → List Char → Option (CharSet × List Char)
  | 0, _, _, _ => none
  | fuel + 1, left, items, cs =>
    match skip spaced cs with
    | [] => none
    | ']' :: rest => some (combine left items, rest)
    | '[' :: rest =>
      match readAsciiClass? rest with
      | some (negated, rest) => readClass spaced fuel left (.standard negated :: items) rest
      | none => do
        let (negated, start, rest) := readClassStart spaced rest
        let (set, rest) ← readClass spaced fuel none start.reverse rest
        readClass spaced fuel left (.bracketed negated set :: items) rest
    | '&' :: '&' :: rest | '-' :: '-' :: rest | '~' :: '~' :: rest =>
      readClass spaced fuel (some (combine left items)) [] rest
    | cs => do
      let (item, rest) ← readClassItem spaced cs
      readClass spaced fuel left (item :: items) rest

/-! ### Groups -/

/-- The name of a group, up to its closing angle bracket. -/
def readGroupName (cs : List Char) : Option (List Char × List Char) :=
  let name := cs.takeWhile (· ≠ '>')
  let isFirst (c : Char) : Bool := c = '_' || Text.isLetter c
  let isNext (c : Char) : Bool :=
    isFirst c || c = '.' || c = '[' || c = ']' || Text.isNumber c
  match name, cs.dropWhile (· ≠ '>') with
  | c :: more, _ :: rest => if isFirst c && more.all isNext then some (name, rest) else none
  | _, _ => none

/-- The letters of a change of switches, up to the colon or parenthesis behind them. Each letter
may stand there once, and so may a hyphen, behind which a letter has to follow. -/
def readFlagLetters : List Char → List Char → Option (List Char × List Char)
  | _, [] => none
  | seen, c :: rest =>
    if c = ':' ∨ c = ')' then
      if seen.head? = some '-' then none else some (seen.reverse, c :: rest)
    else if "imsUuRx-".toList.contains c && !seen.contains c then readFlagLetters (c :: seen) rest
    else none

/-- What the letters say of one switch. -/
def flagState (flag : Char) (letters : List Char) : Option Bool :=
  if letters.contains flag then some (!(letters.takeWhile (· ≠ flag)).contains '-') else none

/-- The switches of the letters. -/
def flagsOf (letters : List Char) : PatternFlags :=
  ⟨flagState 'u' letters, flagState 'x' letters⟩

/-- What an opening parenthesis begins. -/
inductive Opening
  | flags (change : PatternFlags)
  | group (name : Option (List Char)) (change : Option PatternFlags)

/-- What an opening parenthesis begins, and what follows. Conditions on the text around a match are
no part of the language. -/
def readOpening (spaced : Bool) (cs : List Char) : Option (Opening × List Char) :=
  match skip spaced cs with
  | '?' :: '=' :: _ | '?' :: '!' :: _ | '?' :: '<' :: '=' :: _ | '?' :: '<' :: '!' :: _ => none
  | '?' :: 'P' :: '<' :: rest | '?' :: '<' :: rest =>
    (readGroupName rest).map fun (name, rest) => (.group (some name) none, rest)
  | '?' :: rest => do
    let (letters, rest) ← readFlagLetters [] rest
    match rest with
    | ':' :: rest => some (.group none (some (flagsOf letters)), rest)
    | _ :: rest => if letters.isEmpty then none else some (.flags (flagsOf letters), rest)
    | [] => none
  | rest => some (.group none none, rest)

/-! ### Repetitions -/

/-- A number of repetitions, which may have white space around it. -/
def readCount (spaced : Bool) (cs : List Char) : Option Nat × List Char :=
  let rec digits : Nat → List Char → List Char × List Char
    | 0, cs => ([], cs)
    | fuel + 1, cs => match cs with
      | c :: rest =>
        if c.isDigit then
          let (more, rest) := digits fuel (skip spaced rest)
          (c :: more, rest)
        else ([], cs)
      | [] => ([], [])
  let (found, rest) := digits (cs.length + 1) (cs.dropWhile Text.isBlank)
  let rest := skip spaced (rest.dropWhile Text.isBlank)
  let value := if found.isEmpty then none else digitsValue 10 found
  (value.filter (· < twoTo 32), rest)

/-- The bounds of a counted repetition behind its opening brace. -/
def readBounds (spaced : Bool) (cs : List Char) : Option (List Char) :=
  let (least, rest) := readCount spaced (skip spaced cs)
  match least, rest with
  | some _, '\x7d' :: rest => some rest
  | some least, ',' :: rest =>
    match skip spaced rest with
    | '\x7d' :: rest => some rest
    | rest =>
      match readCount spaced rest with
      | (some greatest, '\x7d' :: rest) => if least ≤ greatest then some rest else none
      | _ => none
  | _, _ => none

/-- What follows a question mark, if there is one. -/
def afterLazy : List Char → List Char
  | '?' :: rest => rest
  | cs => cs

/-- The parts with the last of them repeated, the parts being in reverse. A change of switches
cannot be repeated. -/
def repeatLast : List Pattern → Option (List Pattern)
  | [] | .empty :: _ | .flags _ :: _ => none
  | part :: rest => some (.repetition part :: rest)

/-! ### Expressions -/

/-- What an escape stands for outside a class. -/
def Escaped.toPattern : Escaped → Pattern
  | .char c => .char c
  | .standard negated => .standard negated
  | .property name => .property name
  | .assertion => .assertion

/-- Reads an expression up to a closing parenthesis or the end. The finished branches, and the parts
of the current branch, are in reverse. -/
def readExpression :
    Nat → Bool → List Pattern → List Pattern → List Char → Option (Pattern × List Char)
  | 0, _, _, _, _ => none
  | fuel + 1, spaced, branches, parts, cs =>
    let finished := ofBranches ((ofParts parts.reverse :: branches).reverse)
    match skip spaced cs with
    | [] => some (finished, [])
    | ')' :: rest => some (finished, ')' :: rest)
    | '|' :: rest => readExpression fuel spaced (ofParts parts.reverse :: branches) [] rest
    | '(' :: rest => do
      let (opening, rest) ← readOpening spaced rest
      match opening with
      | .flags change =>
        readExpression fuel (change.spaced.getD spaced) branches (.flags change :: parts) rest
      | .group name change =>
        let within := (change.bind (·.spaced)).getD spaced
        let (body, rest) ← readExpression fuel within [] [] rest
        match rest with
        | ')' :: rest => readExpression fuel spaced branches (.group name change body :: parts) rest
        | _ => none
    | '[' :: rest => do
      let (negated, start, rest) := readClassStart spaced rest
      let (set, rest) ← readClass spaced fuel none start.reverse rest
      readExpression fuel spaced branches (.bracketed negated set :: parts) rest
    | '?' :: rest | '*' :: rest | '+' :: rest => do
      readExpression fuel spaced branches (← repeatLast parts) (afterLazy rest)
    | '\x7b' :: rest => do
      let parts ← repeatLast parts
      let rest ← readBounds spaced rest
      readExpression fuel spaced branches parts (afterLazy (skip spaced rest))
    | '\\' :: rest => do
      let (escaped, rest) ← readEscape spaced rest
      readExpression fuel spaced branches (escaped.toPattern :: parts) rest
    | '.' :: rest => readExpression fuel spaced branches (.dot :: parts) rest
    | '^' :: rest | '$' :: rest => readExpression fuel spaced branches (.assertion :: parts) rest
    | c :: rest => readExpression fuel spaced branches (.char ⟨c, false⟩ :: parts) rest

/-- The expression that a text is. Every step reads a character, so that as many steps as characters
suffice. -/
def read? (text : String) : Option Pattern :=
  let cs := text.toList
  match readExpression (cs.length + 1) false [] [] cs with
  | some (pattern, []) => some pattern
  | _ => none

end MessageSchema.Pattern
