import MessageSchema.Binary64.Basic

/-!
# Rounding to the nearest binary64 number

Every operation on finite numbers is the exact result rounded once, a tie going to the even
significand. A result beyond the largest finite number has no rounding here.

## Main definitions

* `roundHalfEven`: the nearest whole number to a quotient.
* `Binary64.nearest`: the nearest binary64 number to a quotient.
* `Binary64.ofDecimal`, `Binary64.ofInt`: a decimal numeral and an integer, rounded.
* `Binary64.mul`, `Binary64.div`: product and quotient, rounded.
-/

namespace MessageSchema

/-- The whole number nearest to `num / den`; a half goes to the even neighbour. -/
def roundHalfEven (num den : Nat) : Nat :=
  let whole := num / den
  let rest := num % den
  if 2 * rest < den then whole
  else if den < 2 * rest then whole + 1
  else if whole % 2 = 0 then whole
  else whole + 1

namespace Binary64

/-- The number with the given parts, if these are in normal form. -/
def ofParts (negative : Bool) (significand : Nat) (exponent : Int) : Option Binary64 :=
  if h : Canonical significand exponent then some ⟨negative, significand, exponent, h⟩ else none

/-- The number with the given parts; a significand that rounding has made too long is halved. -/
def carried (negative : Bool) (significand : Nat) (exponent : Int) : Option Binary64 :=
  if significand = twoTo 53 then ofParts negative (twoTo 52) (exponent + 1)
  else ofParts negative significand exponent

/-- The exponent under which a quotient has a significand of full length. -/
def fullExponent (num den : Nat) : Int :=
  let guess : Int := (Nat.log2 num : Int) - Nat.log2 den - 53
  if num * twoTo (-guess).toNat < den * twoTo guess.toNat * twoTo 53 then guess else guess + 1

/-- The binary64 number nearest to `num / den`, or nothing where that is no finite number. -/
def nearest (negative : Bool) (num den : Nat) : Option Binary64 :=
  if num = 0 then some (zero negative)
  else
    let exponent := max (fullExponent num den) (-1074)
    carried negative (roundHalfEven (num * twoTo (-exponent).toNat) (den * twoTo exponent.toNat)) exponent

/-- The integer, rounded. -/
def ofInt (n : Int) : Option Binary64 :=
  nearest (n < 0) n.natAbs 1

/-- The number `digits * 10 ^ exponent`, rounded. Exponents far outside the range are settled by
the count of digits alone, so that no huge power is formed. -/
def ofDecimal (negative : Bool) (digits : Nat) (exponent : Int) : Option Binary64 :=
  let reach := (Nat.toDigits 10 digits).length + exponent
  if digits = 0 || reach < -330 then some (zero negative)
  else if reach > 330 then none
  else nearest negative (digits * tenTo exponent.toNat) (tenTo (-exponent).toNat)

/-- The product, rounded. -/
def mul (x y : Binary64) : Option Binary64 :=
  nearest (x.negative != y.negative) (x.fraction.1 * y.fraction.1) (x.fraction.2 * y.fraction.2)

/-- The quotient by a number other than zero, rounded. -/
def div (x y : Binary64) : Option Binary64 :=
  nearest (x.negative != y.negative) (x.fraction.1 * y.fraction.2) (x.fraction.2 * y.fraction.1)

end Binary64

end MessageSchema
