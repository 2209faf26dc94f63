import MessageSchema.Binary64.Basic

/-!
# The fewest digits that read back

Around a finite number lies the interval of reals that round to it; its ends belong to it exactly
when the significand is even. Of all decimals inside, the one with the fewest digits is wanted, and
of those the nearest. On each decimal grid only the two neighbours of the number can qualify.

## Main definitions

* `Decimal`: digits and a power of ten.
* `Binary64.shortest`: the shortest decimal that rounds to a given number.
-/

namespace MessageSchema

/-- The decimal `digits * 10 ^ exponent`. -/
structure Decimal where
  digits : Nat
  exponent : Int
deriving DecidableEq, Repr

/-- Which neighbour is taken when a number lies halfway between two of a grid. -/
inductive TieRule
  | up
  | toEven
deriving DecidableEq

/-- The same decimal without trailing zeros among its digits. -/
def Decimal.trimmed : Nat → Decimal → Decimal
  | 0, d => d
  | fuel + 1, d =>
    if d.digits ≠ 0 ∧ d.digits % 10 = 0 then
      Decimal.trimmed fuel ⟨d.digits / 10, d.exponent + 1⟩
    else d

namespace Binary64

/-- The least `p` with `num / den < 10 ^ p`, searched upwards from a value that is not above it. -/
def decimalPoint (num den : Nat) : Nat → Int → Int
  | 0, p => p
  | fuel + 1, p =>
    if num * tenTo (-p).toNat < den * tenTo p.toNat then p else decimalPoint num den fuel (p + 1)

/-- A quarter of the last place of `x`, on a scale on which the step of a grid is whole too. -/
def quarter (x : Binary64) (step : Int) : Nat :=
  twoTo x.exponent.toNat * tenTo (-step).toNat

/-- The step `10 ^ step` of a grid, on the same scale. -/
def stride (x : Binary64) (step : Int) : Nat :=
  4 * twoTo (-x.exponent).toNat * tenTo step.toNat

/-- How many quarters of its last place a number is away from the middle to the number below it. -/
def margin (x : Binary64) : Nat :=
  if x.significand = twoTo 52 ∧ -1074 < x.exponent then 1 else 2

/-- Whether the point `c` of the grid of step `10 ^ step` rounds to `x`. -/
def hits (x : Binary64) (step : Int) (c : Nat) : Bool :=
  let point := c * x.stride step
  let low := (4 * x.significand - x.margin) * x.quarter step
  let high := (4 * x.significand + 2) * x.quarter step
  if x.significand % 2 = 0 then low ≤ point && point ≤ high else low < point && point < high

/-- The point of the grid of step `10 ^ step` that stands for `x`, if one of the two neighbours
of `x` on the grid rounds to `x`. -/
def onGrid (tie : TieRule) (x : Binary64) (step : Int) : Option Nat :=
  let value := 4 * x.significand * x.quarter step
  let unit := x.stride step
  let below := value / unit
  let above := below + 1
  match x.hits step below, x.hits step above with
  | false, false => none
  | true, false => some below
  | false, true => some above
  | true, true =>
    let twice := 2 * (value - below * unit)
    if twice < unit then some below
    else if unit < twice then some above
    else match tie with
      | .up => some above
      | .toEven => some (if below % 2 = 0 then below else above)

/-- The first grid that has a hit, going from one digit to seventeen. -/
def firstGrid (tie : TieRule) (x : Binary64) (point : Int) : Nat → Nat → Decimal
  | 0, digits => ⟨(x.onGrid tie (point - digits)).getD 0, point - digits⟩
  | fuel + 1, digits =>
    match x.onGrid tie (point - digits) with
    | some c => ⟨c, point - digits⟩
    | none => firstGrid tie x point fuel (digits + 1)

/-- The decimal with the fewest digits that rounds to the magnitude of `x`. -/
def shortest (tie : TieRule) (x : Binary64) : Decimal :=
  if x.isZero then ⟨0, 0⟩
  else
    let (num, den) := x.fraction
    let estimate := ((Nat.log2 num : Int) - Nat.log2 den - 1) * 30103 / 100000 - 1
    let point := decimalPoint num den 8 estimate
    (firstGrid tie x point 17 1).trimmed 20

end Binary64

end MessageSchema
