import MessageSchema.Text.Cut

/-!
# Patterns of names

A pattern is a text in which a question mark stands for any character, a star for any characters, a
list in brackets for one character that it holds or, behind an exclamation mark, does not hold. Two
stars that are a whole piece of a path stand for any directories.

## Main definitions

* `Glob.Pattern.ofText`: the pattern of a text.
* `Glob.Pattern.accepts`: whether a name fits a pattern.
-/

namespace MessageSchema.Glob

/-- A part of a pattern. -/
inductive Part where
  | char (c : Char)
  | anyChar
  | anyChars
  /-- Any directories, none among them. -/
  | anyDirectories
  /-- A character in one of several ranges, or in none of them. -/
  | inRanges (isNegated : Bool) (ranges : List (Char × Char))
deriving DecidableEq

/-- A pattern. -/
abbrev Pattern := List Part

/-- What is wrong with a text that is no pattern. -/
inductive PatternFault
  | tooManyStars
  | starsInName
  | badRange
deriving DecidableEq

/-- A fault and the position of the character that it is about. -/
structure PatternError where
  position : Nat
  fault : PatternFault
deriving DecidableEq

/-- The wording of an error. -/
def PatternError.message (error : PatternError) : String :=
  "Pattern syntax error near position " ++ toString error.position ++ ": " ++
    match error.fault with
    | .tooManyStars => "wildcards are either regular `*` or recursive `**`"
    | .starsInName => "recursive wildcards must form a single path component"
    | .badRange => "invalid range pattern"

namespace Pattern

/-- The ranges of a list in brackets. -/
def rangesOf : List Char → List (Char × Char)
  | first :: '-' :: last :: rest => (first, last) :: rangesOf rest
  | c :: rest => (c, c) :: rangesOf rest
  | [] => []

/-- A list in brackets, behind its opening bracket: the part, and how many characters it takes. The
first character of the list may be a closing bracket. -/
def readRange? (cs : List Char) : Option (Part × Nat) :=
  let close (isNegated : Bool) (first : Char) (rest : List Char) (taken : Nat) :
      Option (Part × Nat) :=
    let inner := rest.takeWhile (· ≠ ']')
    if inner.length = rest.length then none
    else some (.inRanges isNegated (rangesOf (first :: inner)), taken + inner.length + 1)
  match cs with
  | '!' :: first :: rest => close true first rest 2
  | '!' :: _ => none
  | first :: rest => close false first rest 1
  | [] => none

/-- Reads a pattern from a position on, behind a character. -/
def readFrom : Nat → Nat → Option Char → List Char → Except PatternError Pattern
  | 0, _, _, _ | _, _, _, [] => .ok []
  | fuel + 1, position, before, c :: cs =>
    match c with
    | '?' => (.anyChar :: ·) <$> readFrom fuel (position + 1) (some c) cs
    | '*' =>
      let rest := cs.dropWhile (· == '*')
      match cs.length - rest.length with
      | 0 => (.anyChars :: ·) <$> readFrom fuel (position + 1) (some c) rest
      | 1 =>
        if before.any (· ≠ '/') then .error ⟨position - 1, .starsInName⟩
        else match rest with
          | [] => .ok [.anyDirectories]
          | '/' :: rest => (.anyDirectories :: ·) <$> readFrom fuel (position + 3) (some '/') rest
          | _ => .error ⟨position + 2, .starsInName⟩
      | _ => .error ⟨position + 2, .tooManyStars⟩
    | '[' => match readRange? cs with
      | some (part, taken) =>
        (part :: ·) <$> readFrom fuel (position + 1 + taken) (some ']') (cs.drop taken)
      | none => .error ⟨position, .badRange⟩
    | c => (.char c :: ·) <$> readFrom fuel (position + 1) (some c) cs

/-- The pattern of a text. -/
def ofText (text : String) : Except PatternError Pattern :=
  readFrom (text.length + 1) 0 none text.toList

/-- The text that a pattern without any freedom stands for. -/
def literal? (pattern : Pattern) : Option String :=
  String.ofList <$> pattern.mapM fun
    | .char c => some c
    | _ => none

/-- Whether a pattern stands for any directories. -/
def isRecursive (pattern : Pattern) : Bool :=
  pattern.contains .anyDirectories

/-- Whether a character fits a part that stands for one. -/
def fits (c : Char) : Part → Bool
  | .char expected => c == expected
  | .inRanges isNegated ranges =>
    isNegated != ranges.any fun (first, last) => first ≤ c && c ≤ last
  | _ => true

/-- Whether some end of a text, the whole of it among them, satisfies a condition. -/
def someEnd (condition : List Char → Bool) : List Char → Bool
  | [] => condition []
  | c :: cs => condition (c :: cs) || someEnd condition cs

/-- Whether characters fit a pattern. -/
def acceptsChars : Pattern → List Char → Bool
  | [], cs => cs.isEmpty
  | .anyChars :: rest, cs | .anyDirectories :: rest, cs => someEnd (acceptsChars rest) cs
  | part :: rest, cs =>
    match cs with
    | [] => false
    | c :: cs => fits c part && acceptsChars rest cs

/-- Whether a name fits a pattern. -/
def accepts (pattern : Pattern) (name : String) : Bool :=
  acceptsChars pattern name.toList

end Pattern

end MessageSchema.Glob
