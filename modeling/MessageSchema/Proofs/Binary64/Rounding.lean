import MessageSchema.Binary64.Rounding
import MessageSchema.Binary64.Shortest
import Mathlib.Algebra.Order.Field.Power
import Mathlib.Data.Rat.Cast.Order
import Mathlib.Tactic.FieldSimp
import Mathlib.Tactic.Linarith
import Mathlib.Tactic.NormNum
import Mathlib.Tactic.Positivity
import Mathlib.Tactic.Ring

/-!
# The quotients that round to a number

Around a finite number lies an interval of quotients that round to it. Its ends are the middles to the
neighbouring numbers, and they belong to it when the significand is even. Below a power of two the
neighbour is half as far away.

## Main definitions

* `Binary64.magnitude`: the magnitude of a number.
* `Binary64.Covers`: a magnitude lies in the interval around a number.

## Main results

* `roundHalfEven_eq`: which whole number is nearest.
* `Binary64.nearest_of_covers`: a quotient in the interval around a number rounds to it.
-/

namespace MessageSchema

/-! ### Powers with an integer exponent -/

theorem pow_toNat {a : ℚ} (ha : a ≠ 0) (k : ℤ) :
    a ^ k.toNat = a ^ k * a ^ (-k).toNat := by
  rw [← zpow_natCast, ← zpow_natCast, ← zpow_add₀ ha]
  congr 1
  omega

/-- A quotient, divided by a power of two, as a quotient of naturals. -/
theorem ratio_eq (num den : ℕ) (k : ℤ) :
    ((num * 2 ^ (-k).toNat : ℕ) : ℚ) / (den * 2 ^ k.toNat : ℕ) = (num : ℚ) / den / 2 ^ k := by
  have hpow := pow_toNat (two_ne_zero : (2 : ℚ) ≠ 0) k
  push_cast
  rw [hpow]
  field_simp

/-! ### The nearest whole number -/

/-- **Which whole number is nearest**: the distance is at most a half, and less if the number is
odd. -/
theorem roundHalfEven_eq {num den m : ℕ} (hden : 0 < den) (hlow : (m : ℚ) - 1 / 2 ≤ num / den)
    (hhigh : (num : ℚ) / den ≤ m + 1 / 2)
    (hodd : m % 2 = 1 → (m : ℚ) - 1 / 2 < num / den ∧ (num : ℚ) / den < m + 1 / 2) :
    roundHalfEven num den = m := by
  have hden' : (0 : ℚ) < den := by exact_mod_cast hden
  have hlow' : 2 * (m * den) ≤ 2 * num + den := by
    rw [le_div_iff₀ hden'] at hlow
    have : (2 : ℚ) * (m * den) ≤ 2 * num + den := by linarith
    exact_mod_cast this
  have hhigh' : 2 * num ≤ 2 * (m * den) + den := by
    rw [div_le_iff₀ hden'] at hhigh
    have : (2 : ℚ) * num ≤ 2 * (m * den) + den := by linarith
    exact_mod_cast this
  have hodd' : m % 2 = 1 → 2 * (m * den) < 2 * num + den ∧ 2 * num < 2 * (m * den) + den := by
    intro h
    obtain ⟨hl, hh⟩ := hodd h
    rw [lt_div_iff₀ hden'] at hl
    rw [div_lt_iff₀ hden'] at hh
    constructor
    · have : (2 : ℚ) * (m * den) < 2 * num + den := by linarith
      exact_mod_cast this
    · have : (2 : ℚ) * num < 2 * (m * den) + den := by linarith
      exact_mod_cast this
  have hsplit : den * (num / den) + num % den = num := Nat.div_add_mod num den
  have hrest : num % den < den := Nat.mod_lt num hden
  -- the quotient is the number or the one before it
  have hle : num / den ≤ m := by
    by_contra hlt
    have : (m + 1) * den ≤ num / den * den := Nat.mul_le_mul_right den (by omega)
    have : num / den * den = den * (num / den) := Nat.mul_comm _ _
    have : (m + 1) * den = m * den + den := by ring
    omega
  have hge : m ≤ num / den + 1 := by
    by_contra hlt
    have : (num / den + 2) * den ≤ m * den := Nat.mul_le_mul_right den (by omega)
    have : (num / den + 2) * den = den * (num / den) + 2 * den := by ring
    omega
  simp only [roundHalfEven]
  obtain heq | heq : m = num / den ∨ m = num / den + 1 := by omega
  · have hprod : m * den = den * (num / den) := by rw [heq, Nat.mul_comm]
    split_ifs <;> omega
  · have hprod : m * den = den * (num / den) + den := by rw [heq]; ring
    split_ifs <;> omega

namespace Binary64

/-! ### The interval around a number -/

/-- The magnitude of a number. -/
def magnitude (x : Binary64) : ℚ :=
  x.significand * (2 : ℚ) ^ x.exponent

/-- One value is not beyond the other, where only a number with an even significand allows that they
are equal. -/
def Within {α : Type} [LE α] [LT α] (x : Binary64) (a b : α) : Prop :=
  if x.significand % 2 = 0 then a ≤ b else a < b

/-- A magnitude lies in the interval around a number. -/
def Covers (x : Binary64) (q : ℚ) : Prop :=
  x.Within ((4 * x.significand - x.margin) * (2 : ℚ) ^ x.exponent) (4 * q) ∧
    x.Within (4 * q) ((4 * x.significand + 2) * (2 : ℚ) ^ x.exponent)

variable {x : Binary64} {num den : ℕ}

theorem Within.le {a b : ℚ} (h : x.Within a b) : a ≤ b := by
  unfold Within at h
  split at h
  · exact h
  · exact h.le

theorem Within.lt {a b : ℚ} (h : x.Within a b) (hodd : x.significand % 2 = 1) : a < b := by
  unfold Within at h
  rwa [if_neg (by omega)] at h

theorem margin_le (x : Binary64) : x.margin ≤ 2 := by
  unfold margin
  split <;> omega

/-! ### The parts of a rounded number -/

theorem ofParts_eq (negative : Bool) {significand : ℕ} {exponent : ℤ}
    (h : Canonical significand exponent) :
    ofParts negative significand exponent = some ⟨negative, significand, exponent, h⟩ :=
  dif_pos h

theorem carried_eq (negative : Bool) (x : Binary64) :
    carried negative x.significand x.exponent = some { x with negative } := by
  unfold carried
  rw [if_neg x.canonical.1.ne]
  exact ofParts_eq negative x.canonical

theorem carried_too_long (negative : Bool) {x : Binary64} (hx : x.significand = twoTo 52) :
    carried negative (twoTo 53) (x.exponent - 1) = some { x with negative } := by
  unfold carried
  rw [if_pos rfl, sub_add_cancel, ← hx]
  exact ofParts_eq negative x.canonical

/-- The binary logarithm of a quotient, up to one. -/
theorem between_log2 (hnum : num ≠ 0) (hden : den ≠ 0) :
    (2 : ℚ) ^ ((num.log2 : ℤ) - den.log2 - 1) < num / den ∧
      (num : ℚ) / den < 2 ^ ((num.log2 : ℤ) - den.log2 + 1) := by
  have htwo : (2 : ℚ) ≠ 0 := two_ne_zero
  have hden' : (0 : ℚ) < den := by exact_mod_cast Nat.pos_of_ne_zero hden
  have hnumLow : (2 : ℚ) ^ (num.log2 : ℤ) ≤ num := by
    rw [zpow_natCast]
    exact_mod_cast Nat.log2_self_le hnum
  have hnumHigh : (num : ℚ) < 2 ^ ((num.log2 : ℤ) + 1) := by
    have : (num : ℚ) < 2 ^ (num.log2 + 1) := by exact_mod_cast Nat.lt_log2_self
    exact_mod_cast this
  have hdenLow : (2 : ℚ) ^ (den.log2 : ℤ) ≤ den := by
    rw [zpow_natCast]
    exact_mod_cast Nat.log2_self_le hden
  have hdenHigh : (den : ℚ) < 2 ^ ((den.log2 : ℤ) + 1) := by
    have : (den : ℚ) < 2 ^ (den.log2 + 1) := by exact_mod_cast Nat.lt_log2_self
    exact_mod_cast this
  constructor
  · rw [lt_div_iff₀ hden']
    calc (2 : ℚ) ^ ((num.log2 : ℤ) - den.log2 - 1) * den
        < 2 ^ ((num.log2 : ℤ) - den.log2 - 1) * 2 ^ ((den.log2 : ℤ) + 1) := by gcongr
      _ = 2 ^ (num.log2 : ℤ) := by rw [← zpow_add₀ htwo]; congr 1; ring
      _ ≤ num := hnumLow
  · rw [div_lt_iff₀ hden']
    calc (num : ℚ) < 2 ^ ((num.log2 : ℤ) + 1) := hnumHigh
      _ = 2 ^ ((num.log2 : ℤ) - den.log2 + 1) * 2 ^ (den.log2 : ℤ) := by
        rw [← zpow_add₀ htwo]; congr 1; ring
      _ ≤ 2 ^ ((num.log2 : ℤ) - den.log2 + 1) * den := by gcongr

/-- A quotient is compared with a power of two. -/
theorem lt_pow_iff (hden : den ≠ 0) (k : ℤ) (p : ℕ) :
    num * 2 ^ (-k).toNat < den * 2 ^ k.toNat * 2 ^ p ↔ (num : ℚ) / den < 2 ^ (k + p) := by
  have hpos : 0 < den := Nat.pos_of_ne_zero hden
  have hscale : (0 : ℚ) < (den * 2 ^ k.toNat : ℕ) := by positivity
  have hpow : (0 : ℚ) < 2 ^ k := by positivity
  calc num * 2 ^ (-k).toNat < den * 2 ^ k.toNat * 2 ^ p
      ↔ ((num * 2 ^ (-k).toNat : ℕ) : ℚ) < ((2 : ℚ) ^ p) * (den * 2 ^ k.toNat : ℕ) := by
        rw [mul_comm (den * 2 ^ k.toNat), ← Nat.cast_lt (α := ℚ), Nat.cast_mul (2 ^ p),
          Nat.cast_pow, Nat.cast_ofNat]
    _ ↔ (num : ℚ) / den / 2 ^ k < 2 ^ p := by rw [← div_lt_iff₀ hscale, ratio_eq]
    _ ↔ (num : ℚ) / den < 2 ^ (k + p) := by
        rw [div_lt_iff₀ hpow, zpow_add₀ two_ne_zero, zpow_natCast, mul_comm]

theorem between_fullExponent (hnum : num ≠ 0) (hden : den ≠ 0) :
    (2 : ℚ) ^ (fullExponent num den + 52) ≤ num / den ∧
      (num : ℚ) / den < 2 ^ (fullExponent num den + 53) := by
  obtain ⟨hlow, hhigh⟩ := between_log2 hnum hden
  set guess : ℤ := (num.log2 : ℤ) - den.log2 - 53 with hguess
  have hfits : _ ↔ (num : ℚ) / den < 2 ^ (guess + (53 : ℕ)) := lt_pow_iff hden guess 53
  have hsplit : fullExponent num den =
      if num * 2 ^ (-guess).toNat < den * 2 ^ guess.toNat * 2 ^ 53 then guess else guess + 1 := rfl
  rw [hsplit]
  split
  · rename_i hlt
    refine ⟨?_, hfits.mp hlt⟩
    calc (2 : ℚ) ^ (guess + 52) = 2 ^ ((num.log2 : ℤ) - den.log2 - 1) := by congr 1; omega
      _ ≤ num / den := hlow.le
  · rename_i hge
    constructor
    · calc (2 : ℚ) ^ (guess + 1 + 52) = 2 ^ (guess + 53) := by congr 1; omega
        _ ≤ num / den := le_of_not_gt (mt hfits.mpr hge)
    · calc (num : ℚ) / den < 2 ^ ((num.log2 : ℤ) - den.log2 + 1) := hhigh
        _ = 2 ^ (guess + 1 + 53) := by congr 1; omega

/-- An exponent between which powers of two a value lies is determined. -/
theorem exponent_eq {k e : ℤ} {q : ℚ} (hlow : (2 : ℚ) ^ (k + 52) ≤ q) (hhigh : q < 2 ^ (k + 53))
    (hlow' : (2 : ℚ) ^ (e + 52) ≤ q) (hhigh' : q < 2 ^ (e + 53)) : k = e := by
  have hk : k + 52 < e + 53 := (zpow_lt_zpow_iff_right₀ one_lt_two).mp (hlow.trans_lt hhigh')
  have he : e + 52 < k + 53 := (zpow_lt_zpow_iff_right₀ one_lt_two).mp (hlow'.trans_lt hhigh)
  omega

/-- What is covered lies below the next power of two. -/
theorem Covers.lt {q : ℚ} (h : x.Covers q) : q < 2 ^ (x.exponent + 53) := by
  have hpow : (0 : ℚ) < 2 ^ x.exponent := by positivity
  have hhigh := h.2.le
  have hlong : (x.significand : ℚ) + 1 ≤ 2 ^ 53 := by exact_mod_cast x.canonical.1
  have hprod := mul_le_mul_of_nonneg_right hlong hpow.le
  rw [zpow_add₀ two_ne_zero, show (2 : ℚ) ^ (53 : ℤ) = 2 ^ 53 from zpow_natCast 2 53]
  nlinarith

/-- A covered quotient, in units of the last place, is nearest to the significand. -/
theorem Covers.roundHalfEven_eq (hden : den ≠ 0) (h : x.Covers (num / den)) :
    roundHalfEven (num * 2 ^ (-x.exponent).toNat) (den * 2 ^ x.exponent.toNat) = x.significand := by
  have hpow : (0 : ℚ) < 2 ^ x.exponent := by positivity
  have hscale : 0 < den * 2 ^ x.exponent.toNat :=
    Nat.mul_pos (Nat.pos_of_ne_zero hden) (Nat.two_pow_pos _)
  have hmargin : (x.margin : ℚ) ≤ 2 := by exact_mod_cast x.margin_le
  have hwide : (4 * x.significand - 2 : ℚ) * 2 ^ x.exponent ≤
      (4 * x.significand - x.margin) * 2 ^ x.exponent := by gcongr
  refine MessageSchema.roundHalfEven_eq hscale ?_ ?_ fun hodd => ⟨?_, ?_⟩ <;> rw [ratio_eq]
  · rw [le_div_iff₀ hpow]
    linarith [h.1.le]
  · rw [div_le_iff₀ hpow]
    linarith [h.2.le]
  · rw [lt_div_iff₀ hpow]
    linarith [h.1.lt hodd]
  · rw [div_lt_iff₀ hpow]
    linarith [h.2.lt hodd]

/-- A covered quotient below the binade of a number: the number is a power of two, and the quotient
is nearest to it on the finer grid below. -/
theorem Covers.below (hden : den ≠ 0) (h : x.Covers (num / den))
    (hlow : (num : ℚ) / den < 2 ^ (x.exponent + 52)) (hexponent : -1074 < x.exponent) :
    x.significand = 2 ^ 52 ∧ (2 : ℚ) ^ (x.exponent - 1 + 52) ≤ num / den ∧
      roundHalfEven (num * 2 ^ (-(x.exponent - 1)).toNat) (den * 2 ^ (x.exponent - 1).toNat) =
        2 ^ 53 := by
  have hpow : (0 : ℚ) < 2 ^ x.exponent := by positivity
  have htwo : (2 : ℚ) ^ (52 : ℤ) = 2 ^ 52 := zpow_natCast 2 52
  rw [zpow_add₀ two_ne_zero, htwo] at hlow
  have hmargin : (x.margin : ℚ) ≤ 2 := by exact_mod_cast x.margin_le
  have hsignificand : x.significand = 2 ^ 52 := by
    have hfull : 2 ^ 52 ≤ x.significand := by
      obtain hfull | hleast := x.canonical.2.2.2
      · exact hfull
      · omega
    have hshort : (4 * x.significand - 2 : ℚ) < 4 * 2 ^ 52 := by
      have hle := h.1.le
      by_contra hge
      have := mul_le_mul_of_nonneg_right (le_of_not_gt hge) hpow.le
      nlinarith
    have hshort' : 4 * x.significand < 4 * 2 ^ 52 + 2 := by
      have : (4 * x.significand : ℚ) < 4 * 2 ^ 52 + 2 := by linarith
      exact_mod_cast this
    omega
  have hmargin : x.margin = 1 := if_pos ⟨hsignificand, hexponent⟩
  have hle : (4 * 2 ^ 52 - 1 : ℚ) * 2 ^ x.exponent ≤ 4 * (num / den) := by
    have := h.1.le
    rwa [hsignificand, hmargin, Nat.cast_pow, Nat.cast_ofNat, Nat.cast_one] at this
  have hhalf : (2 : ℚ) ^ (x.exponent - 1) = 2 ^ x.exponent / 2 := by
    rw [zpow_sub₀ two_ne_zero, zpow_one]
  refine ⟨hsignificand, ?_, ?_⟩
  · rw [zpow_add₀ two_ne_zero, htwo, hhalf]
    linarith
  · have hscale : 0 < den * 2 ^ (x.exponent - 1).toNat :=
      Nat.mul_pos (Nat.pos_of_ne_zero hden) (Nat.two_pow_pos _)
    have hhalf' : (0 : ℚ) < 2 ^ x.exponent / 2 := by positivity
    refine MessageSchema.roundHalfEven_eq hscale ?_ ?_ fun hodd => absurd hodd (by norm_num) <;>
      rw [ratio_eq, hhalf, Nat.cast_pow, Nat.cast_ofNat]
    · rw [le_div_iff₀ hhalf']
      linarith
    · rw [div_le_iff₀ hhalf']
      linarith

/-- **A quotient in the interval around a number rounds to it.** -/
theorem nearest_of_covers (negative : Bool) (hnum : num ≠ 0) (hden : den ≠ 0)
    (h : x.Covers (num / den)) : nearest negative num den = some { x with negative } := by
  obtain ⟨hlow, hhigh⟩ := between_fullExponent hnum hden
  have hleast := x.canonical.2.1
  unfold nearest
  rw [if_neg hnum]
  by_cases hbelow : (num : ℚ) / den < 2 ^ (x.exponent + 52) ∧ -1074 < x.exponent
  · obtain ⟨hsignificand, hlow', hround⟩ := h.below hden hbelow.1 hbelow.2
    have hhigh' : (num : ℚ) / den < 2 ^ (x.exponent - 1 + 53) := by
      convert hbelow.1 using 2
      omega
    have hexponent : max (fullExponent num den) (-1074) = x.exponent - 1 := by
      rw [exponent_eq hlow hhigh hlow' hhigh']
      omega
    simp only [hexponent, hround]
    exact carried_too_long negative hsignificand
  · have hexponent : max (fullExponent num den) (-1074) = x.exponent := by
      by_cases hlow' : (2 : ℚ) ^ (x.exponent + 52) ≤ num / den
      · rw [exponent_eq hlow hhigh hlow' h.lt]
        omega
      · have hlt : fullExponent num den + 52 < x.exponent + 53 :=
          (zpow_lt_zpow_iff_right₀ one_lt_two).mp (hlow.trans_lt h.lt)
        have heq : x.exponent = -1074 := by
          by_contra hne
          exact hbelow ⟨not_le.mp hlow', by omega⟩
        omega
    simp only [hexponent, h.roundHalfEven_eq hden]
    exact carried_eq negative x

end Binary64

end MessageSchema
