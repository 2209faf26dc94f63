import MessageSchema.Text.Cut
import Mathlib.Data.Nat.Find

/-!
# What stripping the beginning of a text gives, and where a text is cut

## Main definitions

* `Text.FirstCut`: the first place in a text at which one of several parts stands.

## Main results

* `Text.after?_eq_some_iff`, `Text.stripStart?_eq_some_iff`: stripping succeeds exactly on texts
  that begin so, and gives what follows.
* `Text.withoutDot_of_no_dot`: a name that does not begin with a dot stays as it is.
* `Text.splitFirst?_eq_some_iff`, `Text.splitFirst?_eq_none_iff`: splitting succeeds exactly on
  texts that have the part, and cuts at its first place.
* `Text.pieces_append`, `Text.pieces_of_not_mem`: the pieces between separators.
-/

namespace MessageSchema

namespace Text

theorem after?_eq_some_iff {start cs rest : List Char} :
    after? start cs = some rest ↔ cs = start ++ rest := by
  induction start generalizing cs with
  | nil => simp [after?]
  | cons s start ih =>
    cases cs with
    | nil => simp [after?]
    | cons c cs =>
      by_cases h : s = c
      · simp [after?, h, ih]
      · simp [after?, h, Ne.symm h]

theorem stripStart?_eq_some_iff {start text rest : String} :
    stripStart? start text = some rest ↔ text = start ++ rest := by
  rw [stripStart?, Option.map_eq_some_iff]
  constructor
  · rintro ⟨cs, hcs, rfl⟩
    rw [← String.toList_inj, String.toList_append, String.toList_ofList]
    exact after?_eq_some_iff.mp hcs
  · rintro rfl
    exact ⟨rest.toList, after?_eq_some_iff.mpr (by simp), String.ofList_toList⟩

@[simp] theorem stripStart?_append (start rest : String) :
    stripStart? start (start ++ rest) = some rest :=
  stripStart?_eq_some_iff.mpr rfl

/-- Whether a name begins with a dot. -/
def BeginsWithDot (name : String) : Prop :=
  ∃ rest, name = "." ++ rest

instance (name : String) : Decidable (BeginsWithDot name) :=
  decidable_of_iff ((stripStart? "." name).isSome = true) <|
    Option.isSome_iff_exists.trans (exists_congr fun _ => stripStart?_eq_some_iff)

theorem withoutDot_of_no_dot {name : String} (h : ¬ BeginsWithDot name) :
    withoutDot name = name := by
  rw [withoutDot]
  cases hstrip : stripStart? "." name with
  | none => rfl
  | some rest => exact absurd ⟨rest, stripStart?_eq_some_iff.mp hstrip⟩ h

/-- One dot in front of a name is dropped, whatever the name begins with. -/
theorem withoutDot_dot (name : String) : withoutDot ("." ++ name) = name := by
  rw [withoutDot, stripStart?_append, Option.getD_some]

/-! ### The first place of a part -/

variable {part : List Char} {parts : List (List Char)}
  {cs text before rest before' rest' : List Char}

/-- The first place in a text at which one of several parts stands. -/
structure FirstCut (parts : List (List Char)) (text before part rest : List Char) : Prop where
  mem : part ∈ parts
  eq : text = before ++ part ++ rest
  first : ∀ other ∈ parts, ∀ before' rest', text = before' ++ other ++ rest' →
    before.length ≤ before'.length

theorem exists_firstCut (h : ∃ part ∈ parts, part <:+: text) :
    ∃ before part rest, FirstCut parts text before part rest := by
  classical
  have hplace : ∃ n, ∃ part ∈ parts, ∃ before rest, text = before ++ part ++ rest ∧
      before.length = n := by
    obtain ⟨part, hpart, before, rest, heq⟩ := h
    exact ⟨_, part, hpart, before, rest, heq.symm, rfl⟩
  obtain ⟨part, hpart, before, rest, heq, hlength⟩ := Nat.find_spec hplace
  refine ⟨before, part, rest, hpart, heq, fun other hother before' rest' heq' => ?_⟩
  rw [hlength]
  exact Nat.find_min' hplace ⟨other, hother, before', rest', heq', rfl⟩

/-- No part stands in front of the first one. -/
theorem FirstCut.not_infix (h : FirstCut parts text before part rest)
    (hne : ∀ part ∈ parts, part ≠ [])
    {other : List Char} (hother : other ∈ parts) : ¬ other <:+: before := by
  rintro ⟨before', behind, rfl⟩
  have hlength := h.first other hother before' (behind ++ part ++ rest) (by simp [h.eq])
  have hpos := List.length_pos_iff.mpr (hne other hother)
  simp only [List.length_append] at hlength
  omega

theorem FirstCut.unique (h : FirstCut [part] text before part rest)
    (h' : FirstCut [part] text before' part rest') : before = before' ∧ rest = rest' := by
  have hpart := List.mem_singleton_self part
  have hlength : before.length = before'.length :=
    le_antisymm (h.first part hpart before' rest' h'.eq) (h'.first part hpart before rest h.eq)
  have heq : before ++ (part ++ rest) = before' ++ (part ++ rest') := by
    simpa only [List.append_assoc] using h.eq.symm.trans h'.eq
  obtain ⟨hbefore, htail⟩ := List.append_inj heq hlength
  exact ⟨hbefore, List.append_cancel_left htail⟩

theorem FirstCut.of_subset {others : List (List Char)} (h : FirstCut parts text before part rest)
    (hsubset : others ⊆ parts) (hpart : part ∈ others) : FirstCut others text before part rest :=
  ⟨hpart, h.eq, fun other hother => h.first other (hsubset hother)⟩

theorem firstCut_of_splitFirst? (h : splitFirst? part cs = some (before, rest)) :
    FirstCut [part] cs before part rest := by
  induction cs generalizing before with
  | nil =>
    obtain ⟨behind, hafter, h⟩ := Option.map_eq_some_iff.mp h
    obtain ⟨rfl, rfl⟩ := Prod.mk.inj h
    exact ⟨List.mem_singleton_self part, after?_eq_some_iff.mp hafter,
      fun _ _ _ _ _ => Nat.zero_le _⟩
  | cons c cs ih =>
    rw [splitFirst?] at h
    cases hafter : after? part (c :: cs) with
    | some behind =>
      rw [hafter] at h
      obtain ⟨rfl, rfl⟩ := Prod.mk.inj (Option.some.inj h)
      exact ⟨List.mem_singleton_self part, after?_eq_some_iff.mp hafter,
        fun _ _ _ _ _ => Nat.zero_le _⟩
    | none =>
      rw [hafter] at h
      obtain ⟨⟨front, behind⟩, hsplit, h⟩ := Option.map_eq_some_iff.mp h
      obtain ⟨rfl, rfl⟩ := Prod.mk.inj h
      have hfirst := ih hsplit
      refine ⟨hfirst.mem, by simp [hfirst.eq], fun other hother before' rest' heq => ?_⟩
      cases before' with
      | nil =>
        obtain rfl := List.mem_singleton.mp hother
        have hbegins : after? other (c :: cs) = some rest' := after?_eq_some_iff.mpr heq
        rw [hafter] at hbegins
        cases hbegins
      | cons d before' =>
        have htail : cs = before' ++ other ++ rest' := (List.cons.inj heq).2
        exact Nat.succ_le_succ (hfirst.first other hother before' rest' htail)

theorem splitFirst?_eq_none_iff : splitFirst? part cs = none ↔ ¬ part <:+: cs := by
  induction cs with
  | nil =>
    rw [splitFirst?, Option.map_eq_none_iff, List.infix_nil]
    cases part <;> simp [after?]
  | cons c cs ih =>
    have hprefix : part <+: c :: cs ↔ ∃ rest, after? part (c :: cs) = some rest :=
      exists_congr fun rest => eq_comm.trans after?_eq_some_iff.symm
    rw [splitFirst?, List.infix_cons_iff, hprefix]
    cases after? part (c :: cs) with
    | some rest => simp
    | none => simp [ih]

/-- A text is split at the first place of a part. -/
theorem splitFirst?_eq_some_iff :
    splitFirst? part cs = some (before, rest) ↔ FirstCut [part] cs before part rest := by
  refine ⟨firstCut_of_splitFirst?, fun h => ?_⟩
  cases hsplit : splitFirst? part cs with
  | none => exact absurd ⟨before, rest, h.eq.symm⟩ (splitFirst?_eq_none_iff.mp hsplit)
  | some cut =>
    obtain ⟨hbefore, hrest⟩ := (firstCut_of_splitFirst? hsplit).unique h
    exact congrArg some (Prod.ext hbefore hrest)

/-! ### Pieces between separators -/

variable {separator : Char}

theorem pieces_separator_cons (cs : List Char) :
    pieces separator (separator :: cs) = [] :: pieces separator cs := by
  rw [pieces, if_pos rfl]

theorem pieces_ne_nil (cs : List Char) : pieces separator cs ≠ [] := by
  cases cs with
  | nil => exact List.cons_ne_nil _ _
  | cons c cs =>
    rw [pieces]
    split
    · exact List.cons_ne_nil _ _
    · split <;> exact List.cons_ne_nil _ _

/-- A character that is no separator joins the first piece. -/
theorem pieces_cons {c : Char} (h : c ≠ separator) (cs : List Char) :
    ∃ piece rest, pieces separator cs = piece :: rest ∧
      pieces separator (c :: cs) = (c :: piece) :: rest := by
  have hne : pieces separator cs ≠ [] := pieces_ne_nil cs
  obtain ⟨piece, rest, hpieces⟩ := List.exists_cons_of_ne_nil hne
  refine ⟨piece, rest, hpieces, ?_⟩
  rw [pieces, if_neg h, hpieces]

/-- A separator parts the pieces before it from those behind it. -/
theorem pieces_append (cs ds : List Char) :
    pieces separator (cs ++ separator :: ds) = pieces separator cs ++ pieces separator ds := by
  induction cs with
  | nil => rw [List.nil_append, pieces_separator_cons]; rfl
  | cons c cs ih =>
    by_cases hc : c = separator
    · rw [hc, List.cons_append, pieces_separator_cons, pieces_separator_cons, ih, List.cons_append]
    · obtain ⟨piece, rest, hpieces, hcons⟩ := pieces_cons hc cs
      obtain ⟨piece', rest', hpieces', hcons'⟩ := pieces_cons hc (cs ++ separator :: ds)
      rw [ih, hpieces, List.cons_append, List.cons.injEq] at hpieces'
      obtain ⟨rfl, rfl⟩ := hpieces'
      rw [List.cons_append, hcons', hcons, List.cons_append]

/-- A text without separators is one piece. -/
theorem pieces_of_not_mem {cs : List Char} (h : separator ∉ cs) : pieces separator cs = [cs] := by
  induction cs with
  | nil => rfl
  | cons c cs ih =>
    obtain ⟨hc, hcs⟩ : separator ≠ c ∧ separator ∉ cs := by simpa using h
    rw [pieces, if_neg (Ne.symm hc), ih hcs]

/-- The last piece ends as the text does. -/
theorem getLast?_pieces_append {c : Char} (h : c ≠ separator) (cs : List Char) :
    ∃ piece, (pieces separator (cs ++ [c])).getLast? = some (piece ++ [c]) := by
  induction cs with
  | nil => exact ⟨[], by rw [List.nil_append, pieces_of_not_mem (by simpa using Ne.symm h)]; rfl⟩
  | cons d cs ih =>
    obtain ⟨piece, hpiece⟩ := ih
    by_cases hd : d = separator
    · refine ⟨piece, ?_⟩
      rw [hd, List.cons_append, pieces_separator_cons, List.getLast?_cons, hpiece]
      rfl
    · obtain ⟨first, rest, hpieces, hcons⟩ := pieces_cons hd (cs ++ [c])
      rw [hpieces] at hpiece
      rw [List.cons_append, hcons]
      cases rest with
      | nil =>
        refine ⟨d :: piece, ?_⟩
        obtain rfl : first = piece ++ [c] := by simpa using hpiece
        rfl
      | cons second rest =>
        refine ⟨piece, ?_⟩
        rw [List.getLast?_cons_cons] at hpiece ⊢
        exact hpiece

end Text

end MessageSchema
