import MessageSchema.Binary64.Rounding

/-!
# Numerals in text

The decimal numerals that a text may hold: whole numbers with an optional plus sign, and decimal
fractions with an optional exponent, in ASCII digits only.

## Main definitions

* `digitValue`: the value of a digit in a base up to sixteen.
* `readNatural`, `readSigned`: a whole number in a base.
* `readDecimal`: a finite decimal number.
-/

namespace MessageSchema

/-- The value of a character as a digit, letters of either case going on from ten. -/
def digitValue (base : Nat) (c : Char) : Option Nat :=
  let value :=
    if '0' ≤ c ∧ c ≤ '9' then some (c.toNat - '0'.toNat)
    else if 'a' ≤ c ∧ c ≤ 'z' then some (c.toNat - 'a'.toNat + 10)
    else if 'A' ≤ c ∧ c ≤ 'Z' then some (c.toNat - 'A'.toNat + 10)
    else none
  value.filter (· < base)

/-- The value of a run of digits, which may be empty. -/
def digitsValue (base : Nat) (cs : List Char) : Option Nat :=
  cs.foldlM (fun n c => (digitValue base c).map (n * base + ·)) 0

/-- A whole number: an optional plus sign and at least one digit. -/
def readNatural (base : Nat) (cs : List Char) : Option Nat :=
  let digits := match cs with
    | '+' :: rest => rest
    | _ => cs
  if digits.isEmpty then none else digitsValue base digits

/-- A whole number that may be negative: one optional sign and at least one digit. -/
def readSigned (base : Nat) : List Char → Option Int
  | '-' :: digits => if digits.isEmpty then none else (digitsValue base digits).map (- Int.ofNat ·)
  | cs => (readNatural base cs).map Int.ofNat

/-- The exponent of a numeral: nothing, or a mark and a signed whole number. -/
def readExponent : List Char → Option Int
  | [] => some 0
  | mark :: cs => if mark = 'e' ∨ mark = 'E' then readSigned 10 cs else none

/-- A finite decimal number: a sign, digits with at most one point and at least one digit on
either side together, and an exponent. Numerals that round beyond every finite number, and the
names of infinity and of no number, are not read. -/
def readDecimal (text : List Char) : Option Binary64 := do
  let (negative, cs) := match text with
    | '-' :: rest => (true, rest)
    | '+' :: rest => (false, rest)
    | _ => (false, text)
  let whole := cs.takeWhile Char.isDigit
  let rest := cs.dropWhile Char.isDigit
  let (places, rest) := match rest with
    | '.' :: rest => (rest.takeWhile Char.isDigit, rest.dropWhile Char.isDigit)
    | _ => ([], rest)
  if whole.isEmpty && places.isEmpty then none
  let exponent ← readExponent rest
  let digits ← digitsValue 10 (whole ++ places)
  Binary64.ofDecimal negative digits (exponent - places.length)

end MessageSchema
