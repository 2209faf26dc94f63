/-!
# Finite binary64 numbers, held exactly

A finite binary64 number is a sign, a significand and a power of two in the one normal form that
the interchange format allows. Keeping the three parts, and not a machine word, makes order and
equality plain integer facts: every finite number is a whole multiple of the least positive one.

## Main definitions

* `twoTo`, `tenTo`: the powers that are in use.
* `Binary64.Canonical`: the significands and exponents that occur.
* `Binary64`: a finite number. The two zeros are different numbers.
* `Binary64.units`: the number counted in units of the least positive one; the order is its order.
* `Binary64.fraction`: the magnitude as a quotient of naturals.
-/

namespace MessageSchema

-- the powers of naturals are those of the core library, whatever else is in scope
attribute [local instance (high)] instPowNat

/-- A power of two. -/
abbrev twoTo (k : Nat) : Nat := 2 ^ k

/-- A power of ten. -/
abbrev tenTo (k : Nat) : Nat := 10 ^ k

/-- Significand and exponent are in normal form: a full significand, or the least exponent. -/
def Binary64.Canonical (significand : Nat) (exponent : Int) : Prop :=
  significand < twoTo 53 ∧ -1074 ≤ exponent ∧ exponent ≤ 971 ∧
    (twoTo 52 ≤ significand ∨ exponent = -1074)

instance (significand : Nat) (exponent : Int) :
    Decidable (Binary64.Canonical significand exponent) := by
  unfold Binary64.Canonical
  infer_instance

/-- The finite number `± significand * 2 ^ exponent`. -/
structure Binary64 where
  /-- Whether the sign is a minus; a zero has a sign too. -/
  negative : Bool
  significand : Nat
  exponent : Int
  canonical : Binary64.Canonical significand exponent
deriving DecidableEq

namespace Binary64

/-- The zero of the given sign. -/
def zero (negative : Bool) : Binary64 where
  negative := negative
  significand := 0
  exponent := -1074
  canonical := by decide

instance : Inhabited Binary64 := ⟨zero false⟩

/-- Both zeros count as zero. -/
def isZero (x : Binary64) : Bool :=
  x.significand == 0

/-- The same magnitude with the other sign. -/
def neg (x : Binary64) : Binary64 :=
  { x with negative := !x.negative }

/-- The number counted in units of `2 ^ (-1074)`, of which every finite number is a multiple. -/
def units (x : Binary64) : Int :=
  let magnitude : Int := x.significand * twoTo (x.exponent + 1074).toNat
  if x.negative then -magnitude else magnitude

instance : LT Binary64 := ⟨fun x y => x.units < y.units⟩

instance : LE Binary64 := ⟨fun x y => x.units ≤ y.units⟩

instance (x y : Binary64) : Decidable (x < y) := inferInstanceAs (Decidable (x.units < y.units))

instance (x y : Binary64) : Decidable (x ≤ y) := inferInstanceAs (Decidable (x.units ≤ y.units))

/-- The order is total: what does not exceed is at most. -/
theorem not_lt {x y : Binary64} : ¬ y < x ↔ x ≤ y :=
  Int.not_lt

/-- Numerator and denominator of the magnitude; one of them is a power of two alone. -/
def fraction (x : Binary64) : Nat × Nat :=
  (x.significand * twoTo x.exponent.toNat, twoTo (-x.exponent).toNat)

end Binary64

end MessageSchema
