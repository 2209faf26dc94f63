import MessageSchema.Text.Cut
import Mathlib.Data.List.DropRight

/-!
# White space at the ends of a text

A trimmed text is what is left between white space, and it begins and ends with something else. So
white space at an end of a text does not matter to what is left, and whatever stands between two
parts that are not blank is kept.

## Main definitions

* `Text.IsBlank`: nothing but white space.

## Main results

* `Text.exists_trim`, `Text.trim_append`: what trimming takes away.
* `Text.trim_append_left`, `Text.trim_append_right`: white space at an end does not matter.
* `Text.eq_nil_of_trim_eq_append_left`, `Text.eq_nil_of_trim_eq_append_right`: a trimmed text has no
  white space at its ends.
* `Text.infix_trim`: what trimming keeps.
-/

namespace MessageSchema

namespace Text

variable {cs front middle rest : List Char} {c : Char}

/-- Nothing but white space. -/
def IsBlank (cs : List Char) : Prop :=
  ∀ c ∈ cs, isBlank c = true

instance (cs : List Char) : Decidable (IsBlank cs) :=
  decidable_of_iff (cs.all isBlank = true) List.all_eq_true

theorem isBlank_nil : IsBlank [] :=
  List.forall_mem_nil _

@[simp] theorem isBlank_append : IsBlank (front ++ rest) ↔ IsBlank front ∧ IsBlank rest :=
  List.forall_mem_append

theorem exists_trim (cs : List Char) :
    ∃ before behind, cs = before ++ trim cs ++ behind ∧ IsBlank before ∧ IsBlank behind := by
  refine ⟨cs.takeWhile isBlank, (cs.dropWhile isBlank).rtakeWhile isBlank, ?_, ?_, ?_⟩
  · rw [trim, List.append_assoc]
    exact (List.takeWhile_append_dropWhile.symm).trans
      (congrArg _ (List.rdropWhile_append_rtakeWhile ..).symm)
  · exact fun c hc => List.mem_takeWhile_imp hc
  · exact fun c hc => List.mem_rtakeWhile_imp hc

/-- White space around a text is cut off as far as the text itself. -/
theorem trim_append {before core behind : List Char} (hbefore : IsBlank before)
    (hbehind : IsBlank behind) (hfirst : ∀ c ∈ core.head?, isBlank c = false)
    (hlast : ∀ c ∈ core.getLast?, isBlank c = false) (hne : core ≠ []) :
    trim (before ++ core ++ behind) = core := by
  have hstart : (before ++ core ++ behind).dropWhile isBlank = core ++ behind := by
    obtain ⟨c, rest, rfl⟩ := List.exists_cons_of_ne_nil hne
    rw [List.append_assoc, List.dropWhile_append_of_pos hbefore]
    simp [hfirst c rfl]
  rw [trim, hstart, trimEnd, List.reverse_append,
    List.dropWhile_append_of_pos fun c hc => hbehind c (List.mem_reverse.mp hc)]
  obtain ⟨rest, c, rfl⟩ := (List.eq_nil_or_concat core).resolve_left hne
  simp [hlast c (by simp)]

/-! ### The ends of a trimmed text -/

/-- A text without white space at its ends does not begin with any. -/
theorem isBlank_of_trim_eq_cons (h : trim cs = c :: rest) : isBlank c = false := by
  have hstart : trim cs <+: cs.dropWhile isBlank := List.rdropWhile_prefix isBlank _
  obtain ⟨ending, hending⟩ := hstart
  rw [h, List.cons_append] at hending
  have hhead := List.head?_dropWhile_not isBlank cs
  rw [← hending] at hhead
  simpa using hhead

/-- A text without white space at its ends does not end with any. -/
theorem isBlank_of_trim_eq_append_singleton (h : trim cs = front ++ [c]) : isBlank c = false := by
  have hkept : (cs.dropWhile isBlank).rdropWhile isBlank = front ++ [c] := h
  have hlast := List.rdropWhile_last_not isBlank (cs.dropWhile isBlank) (by simp [hkept])
  simpa [hkept] using hlast

theorem eq_nil_of_trim_eq_append_left (h : trim cs = front ++ rest) (hfront : IsBlank front) :
    front = [] := by
  cases front with
  | nil => rfl
  | cons c front =>
    have hc := isBlank_of_trim_eq_cons h
    rw [hfront c List.mem_cons_self] at hc
    cases hc

theorem eq_nil_of_trim_eq_append_right (h : trim cs = front ++ rest) (hrest : IsBlank rest) :
    rest = [] := by
  rcases List.eq_nil_or_concat' rest with rfl | ⟨rest, c, rfl⟩
  · rfl
  · have hc := isBlank_of_trim_eq_append_singleton (h.trans (List.append_assoc ..).symm)
    rw [hrest c (by simp)] at hc
    cases hc

/-! ### What does not matter, and what is kept -/

theorem trim_append_left (hfront : IsBlank front) (cs : List Char) :
    trim (front ++ cs) = trim cs := by
  rw [trim, trim, List.dropWhile_append_of_pos hfront]

theorem trim_eq_nil_iff : trim cs = [] ↔ IsBlank cs := by
  constructor
  · intro h
    obtain ⟨before, behind, hcs, hbefore, hbehind⟩ := exists_trim cs
    rw [hcs, h]
    simpa using ⟨hbefore, hbehind⟩
  · intro h
    rw [← List.append_nil cs, trim_append_left h]
    rfl

/-- A text that begins with a character that is not white space is not blank. -/
theorem trim_cons_ne_nil (h : isBlank c = false) : trim (c :: cs) ≠ [] := by
  rw [Ne, trim_eq_nil_iff]
  exact fun hall => by simp [hall c List.mem_cons_self] at h

theorem trim_append_right (cs : List Char) (hrest : IsBlank rest) :
    trim (cs ++ rest) = trim cs := by
  by_cases hcs : IsBlank cs
  · rw [trim_eq_nil_iff.mpr hcs, trim_eq_nil_iff, isBlank_append]
    exact ⟨hcs, hrest⟩
  · obtain ⟨before, behind, heq, hbefore, hbehind⟩ := exists_trim cs
    have hne : trim cs ≠ [] := fun h => hcs (trim_eq_nil_iff.mp h)
    conv_lhs => rw [heq]
    rw [List.append_assoc]
    refine trim_append hbefore (isBlank_append.mpr ⟨hbehind, hrest⟩) ?_ ?_ hne
    · intro c hc
      obtain ⟨rest, h⟩ := List.head?_eq_some_iff.mp hc
      exact isBlank_of_trim_eq_cons h
    · intro c hc
      obtain ⟨front, h⟩ := List.getLast?_eq_some_iff.mp hc
      exact isBlank_of_trim_eq_append_singleton h

/-- What stands between two parts that are not blank is kept. -/
theorem infix_trim (hfront : ¬ IsBlank front) (hrest : ¬ IsBlank rest) :
    middle <:+: trim (front ++ middle ++ rest) := by
  obtain ⟨c, hc, hblank⟩ : ∃ c ∈ front, isBlank c = false := by simpa [IsBlank] using hfront
  obtain ⟨d, hd, hblank'⟩ : ∃ d ∈ rest, isBlank d = false := by simpa [IsBlank] using hrest
  have hstart : (front ++ middle ++ rest).dropWhile isBlank =
      front.dropWhile isBlank ++ (middle ++ rest) := by
    rw [List.append_assoc, List.dropWhile_append, if_neg]
    simpa using ⟨c, hc, hblank⟩
  have hend : trimEnd (front.dropWhile isBlank ++ (middle ++ rest)) =
      front.dropWhile isBlank ++ (middle ++ trimEnd rest) := by
    rw [trimEnd, ← List.append_assoc, List.reverse_append, List.dropWhile_append, if_neg]
    · simp [trimEnd]
    · simpa using ⟨d, hd, hblank'⟩
  rw [trim, hstart, hend]
  exact ⟨_, _, List.append_assoc ..⟩

end Text

end MessageSchema
