import MessageSchema.Binary64.Numeral
import MessageSchema.Json.Value

/-!
# Numbers in JSON text

A whole number that fits 64 bits, unsigned or signed, is kept as it is. Every other numeral becomes
a binary64 number in a fixed sequence of rounded steps: as many leading digits as fit 64 bits make
the significand, which is rounded and then scaled by a rounded power of ten. The result can differ
from the nearest number in its last place.

## Main definitions

* `Json.Numeral`: the parts of a numeral.
* `Json.Numeral.read?`: the numeral at the start of a text.
* `Json.Numeral.value?`: its value, or nothing where it is out of range.
-/

namespace MessageSchema.Json

/-- The parts of a numeral: sign, digits before and after the point, and exponent. -/
structure Numeral where
  negative : Bool
  whole : List Char
  places : Option (List Char)
  exponent : Option (Bool × List Char)

namespace Numeral

/-- The exponent part at the start of a text, or nothing where it breaks off. -/
def readExponent? (cs : List Char) : Option (Option (Bool × List Char) × List Char) :=
  match cs with
  | mark :: rest =>
    if mark = 'e' ∨ mark = 'E' then
      let (minus, rest) := match rest with
        | '+' :: rest => (false, rest)
        | '-' :: rest => (true, rest)
        | _ => (false, rest)
      let digits := rest.takeWhile Char.isDigit
      if digits.isEmpty then none else some (some (minus, digits), rest.dropWhile Char.isDigit)
    else some (none, cs)
  | [] => some (none, cs)

/-- The numeral at the start of a text and what follows it. A second digit may not follow a
leading zero, and there are digits on both sides of a point. -/
def read? (cs : List Char) : Option (Numeral × List Char) := do
  let (negative, cs) := match cs with
    | '-' :: rest => (true, rest)
    | _ => (false, cs)
  let whole := cs.takeWhile Char.isDigit
  if whole.isEmpty || (whole.length > 1 && whole.head? == some '0') then none
  let (places, rest) ← match cs.dropWhile Char.isDigit with
    | '.' :: rest =>
      let places := rest.takeWhile Char.isDigit
      if places.isEmpty then none else some (some places, rest.dropWhile Char.isDigit)
    | rest => some (none, rest)
  let (exponent, rest) ← readExponent? rest
  some (⟨negative, whole, places, exponent⟩, rest)

/-- One more than the greatest significand. -/
def significandLimit : Nat := twoTo 64

/-- The value of as many leading digits as stay below the limit, and how many are left over. -/
def gather : Nat → List Char → Nat × Nat
  | n, [] => (n, 0)
  | n, c :: cs =>
    let next := n * 10 + (c.toNat - '0'.toNat)
    if next < significandLimit then gather next cs else (n, cs.length + 1)

/-- The power of ten, rounded. -/
def powerOfTen (n : Nat) : Option Binary64 :=
  Binary64.ofDecimal false 1 n

/-- A number below `2 ^ 64` scaled by a power of ten. A large negative exponent is applied in steps
of 308, of which three leave nothing but zero; a result beyond every finite number is out of
range. -/
def scale : Nat → Binary64 → Int → Option Binary64
  | 0, x, _ => some x
  | fuel + 1, x, exponent => do
    if exponent.natAbs ≤ 308 then
      let power ← powerOfTen exponent.natAbs
      if 0 ≤ exponent then x.mul power else x.div power
    else if x.isZero then some x
    else if 0 ≤ exponent then none
    else
      let power ← powerOfTen 308
      scale fuel (← x.div power) (exponent + 308)

/-- The exponent with its sign, or nothing where it exceeds 32 bits. -/
def exponentValue (numeral : Numeral) : Option Int :=
  match numeral.exponent with
  | none => some 0
  | some (minus, digits) =>
    let n := (digitsValue 10 digits).getD 0
    if n < twoTo 31 then some (if minus then - Int.ofNat n else n) else none

/-- The numeral as a binary64 number, or nothing where it is out of range. -/
def real? (numeral : Numeral) : Option Binary64 := do
  let (whole, left) := gather 0 numeral.whole
  let places := numeral.places.getD []
  let (significand, unread) := gather whole places
  let taken : Int := places.length - unread
  match numeral.exponentValue with
  | some exponent =>
    let x ← Binary64.ofInt significand
    let x ← scale 8 x (left - taken + exponent)
    some (if numeral.negative then x.neg else x)
  | none =>
    let minus := (numeral.exponent.map (·.1)).getD false
    if significand = 0 || minus then some (.zero numeral.negative) else none

/-- The value of a numeral. A whole number outside both 64-bit ranges, and a negative zero, is a
binary64 number. -/
def value? (numeral : Numeral) : Option Json :=
  let whole := (digitsValue 10 numeral.whole).getD 0
  match numeral.places, numeral.exponent with
  | none, none =>
    if ¬ numeral.negative ∧ whole < twoTo 64 then some (.integer whole)
    else if numeral.negative ∧ 0 < whole ∧ whole ≤ twoTo 63 then
      some (.integer (- Int.ofNat whole))
    else numeral.real?.map .real
  | _, _ => numeral.real?.map .real

end Numeral

end MessageSchema.Json
