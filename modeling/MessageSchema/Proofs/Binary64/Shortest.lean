import MessageSchema.Proofs.Binary64.Rounding

/-!
# The shortest decimal rounds to its number

Only decimals in the interval around a number are taken, and on the finest grid that is tried the step
is so small that the neighbour above the number is in the interval. The decimal that is found therefore
reads back as the number, whichever of its neighbours is taken and however its digits are trimmed.

## Main definitions

* `Decimal.value`: the value of a decimal.
* `Decimal.reach`: the place of its decimal point.

## Main results

* `Binary64.covers_of_onGrid`: a point that is taken rounds to the number.
* `Binary64.covers_shortest`: the shortest decimal rounds to the number.
* `Binary64.ofDecimal_of_covers`: a decimal that rounds to a number is read as the number.
-/

namespace MessageSchema

/-- The value of a decimal. -/
def Decimal.value (d : Decimal) : ℚ :=
  d.digits * (10 : ℚ) ^ d.exponent

/-- The place of the decimal point, counted from the leading digit. -/
def Decimal.reach (d : Decimal) : ℤ :=
  (Nat.toDigits 10 d.digits).length + d.exponent

theorem Decimal.value_trimmed (fuel : ℕ) (d : Decimal) : (Decimal.trimmed fuel d).value = d.value := by
  induction fuel generalizing d with
  | zero => rfl
  | succ fuel ih =>
    unfold Decimal.trimmed
    split
    · rename_i h
      have hdigits : (d.digits : ℚ) = 10 * (d.digits / 10 : ℕ) := by
        exact_mod_cast (Nat.mul_div_cancel' (Nat.dvd_of_mod_eq_zero h.2)).symm
      rw [ih, Decimal.value, Decimal.value, hdigits, zpow_add_one₀ (by norm_num)]
      ring
    · rfl

namespace Binary64

variable {x : Binary64} {tie : TieRule} {step : ℤ} {num den c : ℕ}

/-! ### Points of a grid -/

/-- What both the step of a grid and the last place of a number are whole multiples of, inverted. -/
def scale (x : Binary64) (step : ℤ) : ℚ :=
  2 ^ (-x.exponent).toNat * 10 ^ (-step).toNat

theorem scale_pos (x : Binary64) (step : ℤ) : 0 < x.scale step := by
  unfold scale
  positivity

theorem cast_quarter (x : Binary64) (step : ℤ) :
    (x.quarter step : ℚ) = 2 ^ x.exponent * x.scale step := by
  have hpow := pow_toNat (two_ne_zero : (2 : ℚ) ≠ 0) x.exponent
  unfold quarter scale
  push_cast
  rw [hpow]
  ring

theorem cast_stride (x : Binary64) (step : ℤ) :
    (x.stride step : ℚ) = 4 * 10 ^ step * x.scale step := by
  have hpow := pow_toNat (by norm_num : (10 : ℚ) ≠ 0) step
  unfold stride scale
  push_cast
  rw [hpow]
  ring

theorem within_scale {a b s : ℚ} (hs : 0 < s) : x.Within (a * s) (b * s) ↔ x.Within a b := by
  unfold Within
  split
  · exact mul_le_mul_iff_of_pos_right hs
  · exact mul_lt_mul_iff_of_pos_right hs

theorem within_cast {a b : ℕ} : x.Within (a : ℚ) (b : ℚ) ↔ x.Within a b := by
  unfold Within
  split
  · exact Nat.cast_le
  · exact Nat.cast_lt

theorem significand_pos (hx : x.isZero = false) : 0 < x.significand :=
  Nat.pos_of_ne_zero (by simpa [isZero] using hx)

/-- A hit is a point in the interval. -/
theorem hits_iff (hx : x.isZero = false) : x.hits step c = true ↔ x.Covers (c * 10 ^ step) := by
  have hlow : x.margin ≤ 4 * x.significand := by
    have := x.margin_le
    have := significand_pos hx
    omega
  have hhits : x.hits step c = true ↔
      x.Within ((4 * x.significand - x.margin) * x.quarter step) (c * x.stride step) ∧
        x.Within (c * x.stride step) ((4 * x.significand + 2) * x.quarter step) := by
    simp only [hits, Within]
    split <;> simp
  have hpoint : ((c * x.stride step : ℕ) : ℚ) = 4 * (c * 10 ^ step) * x.scale step := by
    rw [Nat.cast_mul, cast_stride]
    ring
  have hbelow : (((4 * x.significand - x.margin) * x.quarter step : ℕ) : ℚ) =
      (4 * x.significand - x.margin) * 2 ^ x.exponent * x.scale step := by
    rw [Nat.cast_mul, cast_quarter, Nat.cast_sub hlow]
    push_cast
    ring
  have habove : (((4 * x.significand + 2) * x.quarter step : ℕ) : ℚ) =
      (4 * x.significand + 2) * 2 ^ x.exponent * x.scale step := by
    rw [Nat.cast_mul, cast_quarter]
    push_cast
    ring
  rw [hhits, ← within_cast, ← within_cast, hpoint, hbelow, habove, within_scale (x.scale_pos step),
    within_scale (x.scale_pos step)]
  rfl

/-- **A point that is taken rounds to the number.** -/
theorem covers_of_onGrid (hx : x.isZero = false) (h : x.onGrid tie step = some c) :
    x.Covers (c * 10 ^ step) := by
  rw [← hits_iff hx]
  simp only [onGrid] at h
  split at h
  · cases h
  · obtain rfl := Option.some.inj h
    assumption
  · obtain rfl := Option.some.inj h
    assumption
  · rename_i hbelow habove
    -- either neighbour may be taken
    split_ifs at h
    · obtain rfl := Option.some.inj h
      exact hbelow
    · obtain rfl := Option.some.inj h
      exact habove
    all_goals cases tie with
      | up =>
        obtain rfl := Option.some.inj h
        exact habove
      | toEven =>
        obtain rfl := Option.some.inj h
        assumption

/-- **On a fine grid a point is taken.** The neighbour above the number is in the interval. -/
theorem exists_onGrid (tie : TieRule) (hstep : 2 * (10 : ℚ) ^ step < 2 ^ x.exponent) :
    ∃ c, x.onGrid tie step = some c := by
  have hstride : 0 < x.stride step := by
    unfold stride
    positivity
  have hfine : x.stride step < 2 * x.quarter step := by
    have hscale := x.scale_pos step
    have : (x.stride step : ℚ) < 2 * x.quarter step := by
      rw [cast_stride, cast_quarter]
      nlinarith
    exact_mod_cast this
  set value := 4 * x.significand * x.quarter step with hvalue
  have hsplit : x.stride step * (value / x.stride step) + value % x.stride step = value :=
    Nat.div_add_mod _ _
  have hrest : value % x.stride step < x.stride step := Nat.mod_lt _ hstride
  have hpoint : (value / x.stride step + 1) * x.stride step =
      x.stride step * (value / x.stride step) + x.stride step := by ring
  have hlow : (4 * x.significand - x.margin) * x.quarter step ≤ value :=
    Nat.mul_le_mul_right _ (Nat.sub_le _ _)
  have hhigh : (4 * x.significand + 2) * x.quarter step = value + 2 * x.quarter step := by
    rw [hvalue]
    ring
  have habove : x.hits step (value / x.stride step + 1) = true := by
    simp only [hits, hpoint, hhigh]
    split
    · simp only [Bool.and_eq_true, decide_eq_true_eq]
      omega
    · simp only [Bool.and_eq_true, decide_eq_true_eq]
      omega
  simp only [onGrid, ← hvalue, habove]
  cases x.hits step (value / x.stride step) with
  | false => exact ⟨_, rfl⟩
  | true =>
    split_ifs
    · exact ⟨_, rfl⟩
    · exact ⟨_, rfl⟩
    all_goals cases tie with
      | up => exact ⟨_, rfl⟩
      | toEven => exact ⟨_, rfl⟩

/-! ### The decimal point -/

/-- The search for the decimal point starts below it and goes up while it is below. -/
theorem le_decimalPoint (hden : den ≠ 0) (fuel : ℕ) {p : ℤ} (hp : (10 : ℚ) ^ (p - 1) ≤ num / den) :
    (10 : ℚ) ^ (decimalPoint num den fuel p - 1) ≤ num / den := by
  induction fuel generalizing p with
  | zero => exact hp
  | succ fuel ih =>
    unfold decimalPoint
    split
    · exact hp
    · rename_i hge
      have hden' : (0 : ℚ) < den := by exact_mod_cast Nat.pos_of_ne_zero hden
      have hpow := pow_toNat (by norm_num : (10 : ℚ) ≠ 0) p
      have hpos : (0 : ℚ) < 10 ^ (-p).toNat := by positivity
      have hle : (den * 10 ^ p.toNat : ℚ) ≤ num * 10 ^ (-p).toNat := by
        exact_mod_cast le_of_not_gt hge
      refine ih ?_
      rw [add_sub_cancel_right, le_div_iff₀ hden', ← mul_le_mul_iff_of_pos_right hpos]
      calc (10 : ℚ) ^ p * den * 10 ^ (-p).toNat = den * 10 ^ p.toNat := by rw [hpow]; ring
        _ ≤ num * 10 ^ (-p).toNat := hle

/-- Powers of ten and of two with small exponents; in this range one decimal place is a little less
than three and a third binary ones. -/
theorem ten_zpow_le_two_zpow {k n : ℤ} (hlow : -1100 ≤ n) (hhigh : n ≤ 1100)
    (h : 100000 * (k + 2) ≤ 30103 * n) : (10 : ℚ) ^ k ≤ 2 ^ n := by
  have hten : (0 : ℚ) ≤ 10 ^ k := by positivity
  have htwo : (0 : ℚ) ≤ 2 ^ n := by positivity
  rcases le_total 0 n with hn | hn
  · -- ten to the third is less than two to the tenth
    rw [← pow_le_pow_iff_left₀ hten htwo (n := 10) (by decide)]
    calc ((10 : ℚ) ^ k) ^ 10 = 10 ^ (k * (10 : ℕ)) := by rw [zpow_mul, zpow_natCast]
      _ ≤ 10 ^ ((3 : ℕ) * n) := zpow_le_zpow_right₀ (by norm_num) (by push_cast; omega)
      _ = ((10 : ℚ) ^ 3) ^ n := by rw [zpow_mul, zpow_natCast]
      _ ≤ ((2 : ℚ) ^ 10) ^ n := zpow_le_zpow_left₀ hn (by norm_num) (by norm_num)
      _ = 2 ^ ((10 : ℕ) * n) := by rw [zpow_mul, zpow_natCast]
      _ = ((2 : ℚ) ^ n) ^ 10 := by rw [mul_comm, zpow_mul, zpow_natCast]
  · -- two to the ninety-third is less than ten to the twenty-eighth
    rw [← pow_le_pow_iff_left₀ hten htwo (n := 93) (by decide)]
    calc ((10 : ℚ) ^ k) ^ 93 = 10 ^ (k * (93 : ℕ)) := by rw [zpow_mul, zpow_natCast]
      _ ≤ 10 ^ ((28 : ℕ) * n) := zpow_le_zpow_right₀ (by norm_num) (by push_cast; omega)
      _ = ((10 : ℚ) ^ 28) ^ n := by rw [zpow_mul, zpow_natCast]
      _ ≤ ((2 : ℚ) ^ 93) ^ n := by
        have hle : ((2 : ℚ) ^ 93) ^ (-n) ≤ (10 ^ 28) ^ (-n) :=
          zpow_le_zpow_left₀ (by omega) (by norm_num) (by norm_num)
        rw [zpow_neg, zpow_neg] at hle
        exact (inv_le_inv₀ (by positivity) (by positivity)).mp hle
      _ = 2 ^ ((93 : ℕ) * n) := by rw [zpow_mul, zpow_natCast]
      _ = ((2 : ℚ) ^ n) ^ 93 := by rw [mul_comm, zpow_mul, zpow_natCast]

/-! ### The search over the grids -/

/-- On the last grid of the search a point is taken. -/
theorem covers_firstGrid (hx : x.isZero = false) (tie : TieRule) (point : ℤ) (fuel digits : ℕ)
    (hstep : 2 * (10 : ℚ) ^ (point - (digits + fuel : ℕ)) < 2 ^ x.exponent) :
    x.Covers (firstGrid tie x point fuel digits).value := by
  induction fuel generalizing digits with
  | zero =>
    obtain ⟨c, hc⟩ := exists_onGrid tie hstep
    rw [Nat.add_zero] at hc
    simpa [firstGrid, hc, Decimal.value] using covers_of_onGrid hx hc
  | succ fuel ih =>
    unfold firstGrid
    split
    · rename_i c hc
      exact covers_of_onGrid hx hc
    · refine ih (digits + 1) ?_
      rwa [Nat.add_assoc, Nat.add_comm 1 fuel]

/-- The magnitude of a number as a quotient. -/
theorem fraction_eq (x : Binary64) : (x.fraction.1 : ℚ) / x.fraction.2 = x.magnitude := by
  have hpow := pow_toNat (two_ne_zero : (2 : ℚ) ≠ 0) x.exponent
  have hpos : (0 : ℚ) < 2 ^ (-x.exponent).toNat := by positivity
  unfold fraction magnitude
  push_cast
  rw [hpow, div_eq_iff hpos.ne']
  ring

theorem magnitude_lt (x : Binary64) : x.magnitude < 2 ^ 53 * 2 ^ x.exponent := by
  have hpow : (0 : ℚ) < 2 ^ x.exponent := by positivity
  have hshort : (x.significand : ℚ) < 2 ^ 53 := by exact_mod_cast x.canonical.1
  exact mul_lt_mul_of_pos_right hshort hpow

/-- The binary logarithm of a magnitude lies in a small range. -/
theorem between_log2_fraction (hx : x.isZero = false) :
    -1074 ≤ (x.fraction.1.log2 : ℤ) - x.fraction.2.log2 ∧
      (x.fraction.1.log2 : ℤ) - x.fraction.2.log2 ≤ 1024 := by
  obtain ⟨hshort, hlow, hhigh, -⟩ := x.canonical
  have hnum : x.fraction.1 ≠ 0 :=
    (Nat.mul_pos (significand_pos hx) (Nat.two_pow_pos _)).ne'
  have hden : x.fraction.2.log2 = (-x.exponent).toNat := Nat.log2_two_pow
  have hlog : x.fraction.1.log2 < 53 + x.exponent.toNat := by
    rw [Nat.log2_lt hnum, Nat.pow_add]
    exact Nat.mul_lt_mul_of_pos_right hshort (Nat.two_pow_pos _)
  omega

/-- **The shortest decimal rounds to the number.** -/
theorem covers_shortest (hx : x.isZero = false) (tie : TieRule) :
    x.Covers (x.shortest tie).value := by
  have hnum : x.fraction.1 ≠ 0 := (Nat.mul_pos (significand_pos hx) (Nat.two_pow_pos _)).ne'
  have hden : x.fraction.2 ≠ 0 := (Nat.two_pow_pos _).ne'
  obtain ⟨hlog, hlog'⟩ := between_log2_fraction hx
  obtain ⟨hlow, -⟩ := between_log2 hnum hden
  set log : ℤ := (x.fraction.1.log2 : ℤ) - x.fraction.2.log2 - 1 with hlogarithm
  set point := decimalPoint x.fraction.1 x.fraction.2 8 (log * 30103 / 100000 - 1) with hpoint
  have hshortest : x.shortest tie = (firstGrid tie x point 17 1).trimmed 20 := by
    unfold shortest
    rw [hx]
    rfl
  rw [hshortest, Decimal.value_trimmed]
  refine covers_firstGrid hx tie point 17 1 ?_
  have hestimate : (10 : ℚ) ^ (log * 30103 / 100000 - 1 - 1) ≤ x.fraction.1 / x.fraction.2 :=
    (ten_zpow_le_two_zpow (by omega) (by omega) (by omega)).trans hlow.le
  have hle : (10 : ℚ) ^ (point - 1) ≤ x.magnitude := by
    rw [← fraction_eq]
    exact le_decimalPoint hden 8 hestimate
  have hten : (10 : ℚ) ^ (point - (1 + 17 : ℕ)) = 10 ^ (point - 1) / 10 ^ 17 := by
    rw [← zpow_natCast, ← zpow_sub₀ (by norm_num)]
    congr 1
    push_cast
    ring
  have hpow : (0 : ℚ) < 2 ^ x.exponent := by positivity
  have hlt := x.magnitude_lt
  rw [hten]
  calc 2 * ((10 : ℚ) ^ (point - 1) / 10 ^ 17) ≤ 2 * (x.magnitude / 10 ^ 17) := by gcongr
    _ ≤ 2 * (2 ^ 53 * 2 ^ x.exponent / 10 ^ 17) := by gcongr
    _ = 2 ^ 54 / 10 ^ 17 * 2 ^ x.exponent := by ring
    _ < 1 * 2 ^ x.exponent := by
      gcongr
      norm_num
    _ = 2 ^ x.exponent := one_mul _

/-! ### Reading a decimal -/

theorem Covers.pos (hx : x.isZero = false) {q : ℚ} (h : x.Covers q) :
    2 ^ x.exponent ≤ 2 * q := by
  have hpow : (0 : ℚ) < 2 ^ x.exponent := by positivity
  have hmargin : (x.margin : ℚ) ≤ 2 := by exact_mod_cast x.margin_le
  have hone : (1 : ℚ) ≤ x.significand := by exact_mod_cast significand_pos hx
  have hle := h.1.le
  nlinarith

/-- The count of digits places a number between two powers of ten. -/
theorem between_length_toDigits {n : ℕ} (hn : n ≠ 0) :
    10 ^ ((Nat.toDigits 10 n).length - 1) ≤ n ∧ n < 10 ^ (Nat.toDigits 10 n).length := by
  have hlength : 0 < (Nat.toDigits 10 n).length := Nat.length_toDigits_pos
  constructor
  · by_contra hlt
    by_cases hone : (Nat.toDigits 10 n).length = 1
    · rw [hone] at hlt
      simp at hlt
      omega
    · have := (Nat.length_toDigits_le_iff (b := 10) (n := n)
        (k := (Nat.toDigits 10 n).length - 1) (by decide) (by omega)).mpr (by omega)
      omega
  · exact (Nat.length_toDigits_le_iff (by decide) hlength).mp le_rfl

/-- A decimal lies between the powers of ten on both sides of its leading digit. -/
theorem between_reach {d : Decimal} (hdigits : d.digits ≠ 0) :
    (10 : ℚ) ^ (d.reach - 1) ≤ d.value ∧ d.value < 10 ^ d.reach := by
  have hten : (0 : ℚ) < 10 ^ d.exponent := by positivity
  have hlength : 0 < (Nat.toDigits 10 d.digits).length := Nat.length_toDigits_pos
  obtain ⟨hmin, hmax⟩ := between_length_toDigits hdigits
  constructor
  · have hcount : d.reach - 1 =
        (((Nat.toDigits 10 d.digits).length - 1 : ℕ) : ℤ) + d.exponent := by
      unfold Decimal.reach
      omega
    rw [hcount, zpow_add₀ (by norm_num), zpow_natCast, Decimal.value]
    gcongr
    exact_mod_cast hmin
  · rw [Decimal.reach, zpow_add₀ (by norm_num), zpow_natCast, Decimal.value]
    gcongr
    exact_mod_cast hmax

/-- No decimal that rounds to a number is too small to be read. -/
theorem Covers.le_reach (hx : x.isZero = false) {d : Decimal} (hdigits : d.digits ≠ 0)
    (h : x.Covers d.value) : -330 ≤ d.reach := by
  by_contra hlt
  have hleast := x.canonical.2.1
  have hpos : (0 : ℚ) < 2 ^ (-1090 : ℤ) := by positivity
  have htiny : d.value < 2 ^ (-1090 : ℤ) :=
    calc d.value < 10 ^ d.reach := (between_reach hdigits).2
      _ ≤ 10 ^ (-331 : ℤ) := zpow_le_zpow_right₀ (by norm_num) (by omega)
      _ ≤ 2 ^ (-1090 : ℤ) := ten_zpow_le_two_zpow (by omega) (by omega) (by omega)
  have hlast : (2 : ℚ) * 2 ^ (-1090 : ℤ) ≤ 2 ^ x.exponent := by
    rw [← zpow_one_add₀ two_ne_zero]
    exact zpow_le_zpow_right₀ one_le_two (by omega)
  have hlow := h.pos hx
  linarith

/-- No decimal that rounds to a number is too large to be read. -/
theorem Covers.reach_le {d : Decimal} (hdigits : d.digits ≠ 0) (h : x.Covers d.value) :
    d.reach ≤ 330 := by
  by_contra hgt
  have hgreatest := x.canonical.2.2.1
  have hhuge : (2 : ℚ) ^ (x.exponent + 53) ≤ d.value :=
    calc (2 : ℚ) ^ (x.exponent + 53) ≤ 2 ^ ((13 : ℤ) * 79) :=
          zpow_le_zpow_right₀ one_le_two (by omega)
      _ = ((2 : ℚ) ^ (13 : ℤ)) ^ (79 : ℤ) := zpow_mul 2 13 79
      _ ≤ ((10 : ℚ) ^ (4 : ℤ)) ^ (79 : ℤ) :=
          zpow_le_zpow_left₀ (by norm_num) (by norm_num) (by norm_num)
      _ = (10 : ℚ) ^ ((4 : ℤ) * 79) := (zpow_mul 10 4 79).symm
      _ ≤ 10 ^ (d.reach - 1) := zpow_le_zpow_right₀ (by norm_num) (by omega)
      _ ≤ d.value := (between_reach hdigits).1
  exact absurd hhuge (not_le.mpr h.lt)

/-- The value of a decimal as a quotient. -/
theorem value_eq_div (d : Decimal) :
    ((d.digits * 10 ^ d.exponent.toNat : ℕ) : ℚ) / (10 ^ (-d.exponent).toNat : ℕ) = d.value := by
  have hpow := pow_toNat (by norm_num : (10 : ℚ) ≠ 0) d.exponent
  have hpos : (0 : ℚ) < 10 ^ (-d.exponent).toNat := by positivity
  rw [Nat.cast_mul, Nat.cast_pow, Nat.cast_pow, Nat.cast_ofNat, hpow, div_eq_iff hpos.ne',
    Decimal.value]
  ring

theorem Covers.digits_ne_zero (hx : x.isZero = false) {d : Decimal} (h : x.Covers d.value) :
    d.digits ≠ 0 := by
  intro hzero
  have hvalue : d.value = 0 := by simp [Decimal.value, hzero]
  have hpow : (0 : ℚ) < 2 ^ x.exponent := by positivity
  have hlow := h.pos hx
  linarith

/-- **A decimal that rounds to a number is read as the number.** -/
theorem ofDecimal_of_covers (negative : Bool) (hx : x.isZero = false) {d : Decimal}
    (h : x.Covers d.value) :
    ofDecimal negative d.digits d.exponent = some { x with negative } := by
  have hdigits := h.digits_ne_zero hx
  have hsmall : ¬ d.reach < -330 := (h.le_reach hx hdigits).not_gt
  have hlarge : ¬ d.reach > 330 := (h.reach_le hdigits).not_gt
  have hguard : ¬ (decide (d.digits = 0) || decide (d.reach < -330)) = true := by
    simp [hdigits, hsmall]
  have hnum : d.digits * 10 ^ d.exponent.toNat ≠ 0 :=
    (Nat.mul_pos (Nat.pos_of_ne_zero hdigits) (Nat.pow_pos (by decide))).ne'
  have hden : 10 ^ (-d.exponent).toNat ≠ 0 := (Nat.pow_pos (by decide)).ne'
  calc ofDecimal negative d.digits d.exponent
      = nearest negative (d.digits * 10 ^ d.exponent.toNat) (10 ^ (-d.exponent).toNat) :=
        (if_neg hguard).trans (if_neg hlarge)
    _ = some { x with negative } :=
        nearest_of_covers negative hnum hden ((value_eq_div d).symm ▸ h)

end Binary64

end MessageSchema
