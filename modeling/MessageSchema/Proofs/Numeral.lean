import MessageSchema.Binary64.Numeral
import Mathlib.Data.Int.Notation
import Mathlib.Data.List.Basic
import Mathlib.Tactic.IntervalCases
import Mathlib.Tactic.Ring

/-!
# Numerals that are read back

The digits of a number in a base are read as the number, zeros in front of them change nothing and
zeros behind them multiply it. A decimal numeral is made up of the digits before the point, the digits
behind it and an exponent.

## Main definitions

* `Numeral`: the parts of a decimal numeral.
* `Numeral.text`: its text.

## Main results

* `digitsValue_toDigits`: the digits of a number are read as the number.
* `readDecimal_text`: a decimal numeral is read part by part.
-/

namespace MessageSchema

variable {base n : ℕ}

/-! ### Runs of digits -/

theorem digitValue_digitChar {d : ℕ} (hd : d < base) (hbase : base ≤ 16) :
    digitValue base (Nat.digitChar d) = some d := by
  have hsmall : d < 16 := by omega
  interval_cases d <;> simp [digitValue, Nat.digitChar, hd]

theorem digitsValue_append (cs cs' : List Char) :
    digitsValue base (cs ++ cs') = (digitsValue base cs).bind fun n =>
      cs'.foldlM (fun n c => (digitValue base c).map (n * base + ·)) n := by
  simp [digitsValue, List.foldlM_append]

theorem digitsValue_concat (cs : List Char) (c : Char) :
    digitsValue base (cs ++ [c]) = (digitsValue base cs).bind fun n =>
      (digitValue base c).map (n * base + ·) := by
  simp [digitsValue_append]

/-- **The digits of a number are read as the number.** -/
theorem digitsValue_toDigits (hbase : 1 < base) (hbase' : base ≤ 16) (n : ℕ) :
    digitsValue base (Nat.toDigits base n) = some n := by
  induction n using Nat.strong_induction_on with
  | _ n ih =>
    by_cases hn : n < base
    · rw [Nat.toDigits_of_lt_base hn]
      simp [digitsValue, digitValue_digitChar hn hbase']
    · have hlt : n / base < n := Nat.div_lt_self (by omega) hbase
      have hdigit := digitValue_digitChar (Nat.mod_lt n (by omega : 0 < base)) hbase'
      rw [Nat.toDigits_of_base_le hbase (by omega), digitsValue_concat, ih _ hlt, Option.bind_some,
        hdigit, Option.map_some, Nat.mul_comm, Nat.div_add_mod]

theorem digitsValue_zeros_append (k : ℕ) (cs : List Char) :
    digitsValue 10 (List.replicate k '0' ++ cs) = digitsValue 10 cs := by
  have hzero : digitValue 10 '0' = some 0 := by decide
  induction k with
  | zero => rfl
  | succ k ih =>
    rw [← ih]
    simp [digitsValue, List.replicate_succ, hzero]

theorem digitsValue_append_zeros {cs : List Char} (h : digitsValue 10 cs = some n) (k : ℕ) :
    digitsValue 10 (cs ++ List.replicate k '0') = some (n * 10 ^ k) := by
  have hzero : digitValue 10 '0' = some 0 := by decide
  induction k with
  | zero => simpa using h
  | succ k ih =>
    rw [List.replicate_succ', ← List.append_assoc, digitsValue_concat, ih, Option.bind_some, hzero,
      Option.map_some]
    congr 1
    ring

theorem isDigit_toDigits {c : Char} (h : c ∈ Nat.toDigits 10 n) : c.isDigit = true :=
  Nat.isDigit_of_mem_toDigits (by decide) (by decide) h

/-- The first of several digits is no sign. -/
theorem ne_sign_of_isDigit {c : Char} (h : c.isDigit = true) : c ≠ '+' ∧ c ≠ '-' := by
  constructor
  · rintro rfl
    simp at h
  · rintro rfl
    simp at h

theorem readNatural_of_isDigit {cs : List Char} (hcs : cs ≠ []) (hdigits : ∀ c ∈ cs, c.isDigit = true)
    (base : ℕ) : readNatural base cs = digitsValue base cs := by
  obtain ⟨c, rest, rfl⟩ := List.exists_cons_of_ne_nil hcs
  obtain ⟨hplus, -⟩ := ne_sign_of_isDigit (hdigits c (by simp))
  unfold readNatural
  split
  · rename_i h
    simp only [List.cons.injEq] at h
    exact absurd h.1 hplus
  · simp

/-- The digits of a number as a whole number. -/
theorem readNatural_toDigits (n : ℕ) : readNatural 10 (Nat.toDigits 10 n) = some n := by
  rw [readNatural_of_isDigit Nat.toDigits_ne_nil fun c hc => isDigit_toDigits hc]
  exact digitsValue_toDigits (by decide) (by decide) n

/-- The digits of a number in base sixteen; none of them is a sign. -/
theorem readNatural_toDigits_sixteen (n : ℕ) : readNatural 16 (Nat.toDigits 16 n) = some n := by
  have hfirst : ∀ rest, Nat.toDigits 16 n ≠ '+' :: rest := by
    intro rest h
    have hread : digitsValue 16 (Nat.toDigits 16 n) = some n :=
      digitsValue_toDigits (by decide) (by decide) n
    have hplus : digitValue 16 '+' = none := by decide
    rw [h] at hread
    simp [digitsValue, hplus] at hread
  unfold readNatural
  split
  · rename_i h
    exact absurd h (hfirst _)
  · simp [Nat.toDigits_ne_nil, digitsValue_toDigits]

/-! ### Decimal numerals -/

/-- The parts of a decimal numeral without a sign. -/
structure Numeral where
  /-- The digits before the point. -/
  whole : List Char
  /-- The digits behind the point, which is left out if there are none. -/
  places : List Char
  exponent : Option ℤ

/-- A point and the digits behind it. -/
def placesText (places : List Char) : List Char :=
  if places.isEmpty then [] else '.' :: places

/-- An exponent and its mark. -/
def exponentText : Option ℤ → List Char
  | none => []
  | some e => 'e' :: (if e < 0 then ['-'] else []) ++ Nat.toDigits 10 e.natAbs

/-- The text of a numeral. -/
def Numeral.text (numeral : Numeral) : List Char :=
  numeral.whole ++ (placesText numeral.places ++ exponentText numeral.exponent)

/-- There are digits before the point, and a point or an exponent. -/
structure Numeral.Proper (numeral : Numeral) : Prop where
  nonempty : numeral.whole ≠ []
  whole : ∀ c ∈ numeral.whole, c.isDigit = true
  places : ∀ c ∈ numeral.places, c.isDigit = true
  fractional : numeral.places ≠ [] ∨ numeral.exponent ≠ none

theorem takeWhile_digits {cs rest : List Char} (hcs : ∀ c ∈ cs, c.isDigit = true)
    (hrest : ∀ c ∈ rest.head?, c.isDigit = false) :
    (cs ++ rest).takeWhile Char.isDigit = cs ∧ (cs ++ rest).dropWhile Char.isDigit = rest := by
  have hstop : rest.takeWhile Char.isDigit = [] ∧ rest.dropWhile Char.isDigit = rest := by
    cases rest with
    | nil => exact ⟨rfl, rfl⟩
    | cons c rest =>
      have hc : c.isDigit = false := hrest c rfl
      simp [hc]
  rw [List.takeWhile_append_of_pos hcs, List.dropWhile_append_of_pos hcs, hstop.1, hstop.2]
  simp

theorem readExponent_exponentText (exponent : Option ℤ) :
    readExponent (exponentText exponent) = some (exponent.getD 0) := by
  cases exponent with
  | none => rfl
  | some e =>
    have hdigits : Nat.toDigits 10 e.natAbs ≠ [] := Nat.toDigits_ne_nil
    by_cases he : e < 0
    · have hvalue : digitsValue 10 (Nat.toDigits 10 e.natAbs) = some e.natAbs :=
        digitsValue_toDigits (by decide) (by decide) _
      have hneg : -(e.natAbs : ℤ) = e := by omega
      simp only [exponentText, if_pos he, readExponent, readSigned, List.cons_append,
        List.nil_append, true_or, if_true]
      rw [if_neg (by simp [hdigits]), hvalue, Option.map_some]
      exact congrArg some hneg
    · have hread := readNatural_toDigits e.natAbs
      have hpos : (e.natAbs : ℤ) = e := by omega
      obtain ⟨c, rest, hcs⟩ := List.exists_cons_of_ne_nil hdigits
      have hdigit : c.isDigit = true := isDigit_toDigits (n := e.natAbs) (by simp [hcs])
      have hminus := (ne_sign_of_isDigit hdigit).2
      simp only [exponentText, if_neg he, List.cons_append, List.nil_append, readExponent, true_or,
        if_true]
      rw [hcs] at hread ⊢
      rw [readSigned, hread, Option.map_some]
      · exact congrArg some hpos
      · rintro rest' h
        simp only [List.cons.injEq] at h
        exact hminus h.1

/-- **A decimal numeral is read part by part.** -/
theorem readDecimal_text {numeral : Numeral} (h : numeral.Proper)
    (hvalue : digitsValue 10 (numeral.whole ++ numeral.places) = some n) :
    readDecimal numeral.text =
      Binary64.ofDecimal false n (numeral.exponent.getD 0 - numeral.places.length) := by
  have hexponent : ∀ c ∈ (exponentText numeral.exponent).head?, c.isDigit = false := by
    intro c hc
    cases hnone : numeral.exponent with
    | none => simp [hnone, exponentText] at hc
    | some e =>
      obtain rfl : 'e' = c := by simpa [hnone, exponentText] using hc
      rfl
  have hpointed : ∀ c ∈ (placesText numeral.places ++ exponentText numeral.exponent).head?,
      c.isDigit = false := by
    intro c hc
    unfold placesText at hc
    split at hc
    · exact hexponent c hc
    · obtain rfl : '.' = c := by simpa using hc
      rfl
  obtain ⟨hwhole, hrest⟩ := takeWhile_digits h.whole hpointed
  obtain ⟨hplaces, hrest'⟩ := takeWhile_digits h.places hexponent
  obtain ⟨c, tail, hcons⟩ := List.exists_cons_of_ne_nil h.nonempty
  obtain ⟨hplus, hminus⟩ := ne_sign_of_isDigit (h.whole c (by simp [hcons]))
  have htext : numeral.text = c :: (tail ++ (placesText numeral.places ++
      exponentText numeral.exponent)) := by
    simp [Numeral.text, hcons]
  have hread := readExponent_exponentText numeral.exponent
  have hnonempty : numeral.whole.isEmpty = false := by simp [h.nonempty]
  unfold readDecimal
  simp only [Option.bind_eq_bind]
  split
  · rename_i heq
    rw [htext, List.cons.injEq] at heq
    exact absurd heq.1 hminus
  · rename_i heq
    rw [htext, List.cons.injEq] at heq
    exact absurd heq.1 hplus
  · simp only [Numeral.text, hwhole, hrest, hnonempty, Bool.false_and, Bool.false_eq_true, if_false]
    cases hcases : numeral.places with
    | nil =>
      have hnone : ∀ rest, exponentText numeral.exponent = '.' :: rest → False := by
        intro rest heq
        cases hexp : numeral.exponent <;> simp [hexp, exponentText] at heq
      rw [hcases, List.append_nil] at hvalue
      simp only [placesText, List.isEmpty_nil, if_true, List.nil_append, hread, Option.bind_some,
        List.append_nil, hvalue]
    | cons d rest =>
      rw [hcases] at hplaces hrest' hvalue
      simp only [placesText, List.isEmpty_cons, Bool.false_eq_true, if_false, List.cons_append] at *
      simp [hplaces, hrest', hread, hvalue]

end MessageSchema
