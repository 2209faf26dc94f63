import MessageSchema.Binary64.Layout
import MessageSchema.Proofs.Binary64.Shortest
import MessageSchema.Proofs.Numeral

/-!
# Numbers in emitted code read back

In both notations the digits of the shortest decimal are laid out as a numeral with a point or an
exponent, whose value is that of the decimal, and so the numeral is read as the number that is written.

## Main results

* `NumberLayout.exists_numeral`: a number in code is a numeral of the same value, with its sign.
* `NumberLayout.readDecimal_of_spells`: a numeral of a number is read as its magnitude.
-/

namespace MessageSchema

namespace NumberLayout

variable {n : ℕ} {exponent : ℤ}

/-- A numeral has a value: its digits are a number, and point and exponent scale it. -/
structure Spells (numeral : Numeral) (q : ℚ) : Prop where
  proper : numeral.Proper
  value : ∃ n, digitsValue 10 (numeral.whole ++ numeral.places) = some n ∧
    (⟨n, numeral.exponent.getD 0 - numeral.places.length⟩ : Decimal).value = q

theorem isDigit_zeros {c : Char} {k : ℕ} (h : c ∈ zeros k) : c.isDigit = true := by
  rw [List.eq_of_mem_replicate h]
  rfl

theorem digitsValue_toDigits_ten (n : ℕ) : digitsValue 10 (Nat.toDigits 10 n) = some n :=
  digitsValue_toDigits (by decide) (by decide) n

/-- A whole number with zeros and `.0` behind its digits. -/
theorem spells_whole (n : ℕ) (he : 0 ≤ exponent) :
    Spells ⟨Nat.toDigits 10 n ++ zeros exponent.toNat, ['0'], none⟩
      (⟨n, exponent⟩ : Decimal).value where
  proper :=
    { nonempty := by simp
      whole := fun c hc => by
        rcases List.mem_append.mp hc with hc | hc
        · exact isDigit_toDigits hc
        · exact isDigit_zeros hc
      places := by simp
      fractional := .inl (by simp) }
  value := by
    have hzeros : Nat.toDigits 10 n ++ zeros exponent.toNat ++ ['0'] =
        Nat.toDigits 10 n ++ List.replicate (exponent.toNat + 1) '0' := by
      rw [List.append_assoc, List.replicate_succ']
      rfl
    refine ⟨n * 10 ^ (exponent.toNat + 1), ?_, ?_⟩
    · simp only [hzeros]
      exact digitsValue_append_zeros (digitsValue_toDigits_ten n) _
    · have hexp : exponent = exponent.toNat := by omega
      simp only [Decimal.value, Option.getD_none, List.length_singleton]
      rw [hexp]
      push_cast
      rw [zpow_natCast, pow_succ, Int.toNat_natCast]
      norm_num
      ring

/-- A point among the digits. -/
theorem spells_among (n : ℕ) (he : exponent < 0)
    (hplaces : (-exponent).toNat < (Nat.toDigits 10 n).length) :
    Spells
      ⟨(Nat.toDigits 10 n).take ((Nat.toDigits 10 n).length - (-exponent).toNat),
        (Nat.toDigits 10 n).drop ((Nat.toDigits 10 n).length - (-exponent).toNat), none⟩
      (⟨n, exponent⟩ : Decimal).value where
  proper :=
    { nonempty := by
        intro h
        have := congrArg List.length h
        simp at this
        omega
      whole := fun c hc => isDigit_toDigits (List.mem_of_mem_take hc)
      places := fun c hc => isDigit_toDigits (List.mem_of_mem_drop hc)
      fractional := .inl fun h => by
        have := congrArg List.length h
        simp at this
        omega }
  value := by
    refine ⟨n, ?_, ?_⟩
    · simp only [List.take_append_drop]
      exact digitsValue_toDigits_ten n
    · congr 2
      simp
      omega

/-- Zeros between the point and the digits. -/
theorem spells_behind (n : ℕ) (he : exponent < 0)
    (hplaces : (Nat.toDigits 10 n).length ≤ (-exponent).toNat) :
    Spells
      ⟨['0'], zeros ((-exponent).toNat - (Nat.toDigits 10 n).length) ++ Nat.toDigits 10 n, none⟩
      (⟨n, exponent⟩ : Decimal).value where
  proper :=
    { nonempty := by simp
      whole := by simp
      places := fun c hc => by
        rcases List.mem_append.mp hc with hc | hc
        · exact isDigit_zeros hc
        · exact isDigit_toDigits hc
      fractional := .inl (by simp) }
  value := by
    refine ⟨n, ?_, ?_⟩
    · have hzeros : ['0'] ++ (zeros ((-exponent).toNat - (Nat.toDigits 10 n).length) ++
          Nat.toDigits 10 n) = List.replicate ((-exponent).toNat -
            (Nat.toDigits 10 n).length + 1) '0' ++ Nat.toDigits 10 n := rfl
      simp only [hzeros]
      rw [digitsValue_zeros_append]
      exact digitsValue_toDigits_ten n
    · congr 2
      simp [zeros]
      omega

/-- One digit before the point, and an exponent. -/
theorem spells_scientific {c : Char} {rest : List Char} (h : Nat.toDigits 10 n = c :: rest) :
    Spells ⟨[c], rest, some (exponent + (Nat.toDigits 10 n).length - 1)⟩
      (⟨n, exponent⟩ : Decimal).value where
  proper :=
    { nonempty := by simp
      whole := fun d hd => isDigit_toDigits (n := n) (by simp_all)
      places := fun d hd => isDigit_toDigits (n := n) (by simp_all)
      fractional := .inr (by simp) }
  value := by
    refine ⟨n, ?_, ?_⟩
    · simp only [List.singleton_append, ← h]
      exact digitsValue_toDigits_ten n
    · congr 2
      simp [h]
      omega

theorem exists_layPositional (n : ℕ) (exponent : ℤ) :
    ∃ numeral, layPositional true (Nat.toDigits 10 n) exponent = numeral.text ∧
      Spells numeral (⟨n, exponent⟩ : Decimal).value := by
  unfold layPositional
  split
  · rename_i he
    exact ⟨_, by simp [Numeral.text, placesText, exponentText], spells_whole n he⟩
  · rename_i he
    simp only
    split
    · rename_i hplaces
      have hnonempty : (Nat.toDigits 10 n).drop ((Nat.toDigits 10 n).length - (-exponent).toNat) ≠
          [] := by
        intro h
        have := congrArg List.length h
        simp at this
        omega
      refine ⟨_, ?_, spells_among n (by omega) hplaces⟩
      simp [Numeral.text, placesText, exponentText, hnonempty]
    · rename_i hplaces
      refine ⟨_, ?_, spells_behind n (by omega) (by omega)⟩
      simp [Numeral.text, placesText, exponentText, Nat.toDigits_ne_nil]

theorem exists_layScientific (n : ℕ) (exponent : ℤ) :
    ∃ numeral, layScientific false (Nat.toDigits 10 n)
        (exponent + (Nat.toDigits 10 n).length - 1) = numeral.text ∧
      Spells numeral (⟨n, exponent⟩ : Decimal).value := by
  obtain ⟨c, rest, h⟩ := List.exists_cons_of_ne_nil (Nat.toDigits_ne_nil (n := n) (b := 10))
  refine ⟨_, ?_, spells_scientific h⟩
  rw [h]
  cases rest with
  | nil => simp [layScientific, Numeral.text, placesText, exponentText]
  | cons d rest => simp [layScientific, Numeral.text, placesText, exponentText]

/-- Either notation may be chosen. -/
theorem exists_laid (isPositional : Bool) (n : ℕ) (exponent : ℤ) :
    ∃ numeral, (if isPositional then layPositional true (Nat.toDigits 10 n) exponent
        else layScientific false (Nat.toDigits 10 n)
          (exponent + (Nat.toDigits 10 n).length - 1)) = numeral.text ∧
      Spells numeral (⟨n, exponent⟩ : Decimal).value := by
  cases isPositional with
  | true => exact exists_layPositional n exponent
  | false => exact exists_layScientific n exponent

/-- **A number in code is a numeral of the same value, with its sign.** -/
theorem exists_numeral (x : Binary64) :
    ∃ numeral, Spells numeral (x.shortest .up).value ∧
      (code.text x).toList = (if x.negative then ['-'] else []) ++ numeral.text := by
  have hsign : ∀ magnitude : List Char, (if x.negative then '-' :: magnitude else magnitude) =
      (if x.negative then ['-'] else []) ++ magnitude := by
    intro magnitude
    split <;> rfl
  unfold text
  simp only [String.toList_ofList]
  rw [hsign]
  obtain ⟨numeral, htext, hspells⟩ :=
    exists_laid _ (x.shortest .up).digits (x.shortest .up).exponent
  exact ⟨numeral, hspells, congrArg _ htext⟩

/-- **A numeral of a number is read as its magnitude.** -/
theorem readDecimal_of_spells {x : Binary64} {numeral : Numeral}
    (h : Spells numeral (x.shortest .up).value) :
    readDecimal numeral.text = some { x with negative := false } := by
  obtain ⟨n, hread, hvalue⟩ := h.value
  rw [readDecimal_text h.proper hread]
  cases hzero : x.isZero with
  | false =>
    have hcovers : x.Covers (⟨n, numeral.exponent.getD 0 - numeral.places.length⟩ : Decimal).value :=
      hvalue ▸ Binary64.covers_shortest hzero .up
    exact Binary64.ofDecimal_of_covers false hzero hcovers
  | true =>
    have hshortest : x.shortest .up = ⟨0, 0⟩ := by simp [Binary64.shortest, hzero]
    have hn : n = 0 := by
      rw [hshortest] at hvalue
      simpa [Decimal.value, zpow_ne_zero] using hvalue
    have hx : { x with negative := false } = Binary64.zero false := by
      obtain ⟨negative, significand, exponent, hcanonical⟩ := x
      obtain rfl : significand = 0 := by simpa [Binary64.isZero] using hzero
      obtain rfl : exponent = -1074 := by
        obtain hfull | hleast := hcanonical.2.2.2
        · norm_num at hfull
        · exact hleast
      rfl
    rw [hx, hn]
    rfl

end NumberLayout

end MessageSchema
