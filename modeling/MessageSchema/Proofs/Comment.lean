import MessageSchema.Shape
import MessageSchema.Proofs.Blank
import MessageSchema.Proofs.Cut

/-!
# Where a comment is divided

A comment is described as divided at its first blank line: in front of it stands the title, a single
paragraph, and behind it the description. A blank line is made up of two line feeds, or of two pairs
of carriage return and line feed, and the second kind is looked for only if there is none of the
first kind. So in a comment that has both kinds, a blank line of carriage returns that comes first
is passed over. That is seen in the result if more than white space stands between the two: then the
title is not a paragraph but at least two.

## Main definitions

* `Comment.Divided`: a comment is divided at its first blank line.
* `Comment.HidesParagraph`: a paragraph other than the first stands in front of the first blank line
  of line feeds.

## Main results

* `Comment.divided_iff_not_hidesParagraph`: which comments are divided at their first blank line.
* `Comment.not_divided_mixed`: a comment that is not.
-/

namespace MessageSchema

namespace Comment

open Text

variable {comment : String} {text before between gap rest : List Char}

/-- The blank lines: two ends of lines in a row, of either kind. -/
def gaps : List (List Char) :=
  [lineFeedGap, carriageReturnGap]

/-- A text has a blank line. -/
def HasBlankLine (text : List Char) : Prop :=
  ∃ gap ∈ gaps, gap <:+: text

/-- A comment is divided at its first blank line. Title and description are what stands in front of
it and behind it, and neither is empty; the title has no blank line. Without a blank line, all of
the comment is description. -/
structure Divided (comment : String) : Prop where
  split : ∀ before gap rest, FirstCut gaps (trim comment.toList) before gap rest →
    titleAndDescription comment = (String.ofList (trim before), String.ofList (trim rest)) ∧
      trim before ≠ [] ∧ ¬ HasBlankLine (trim before) ∧ trim rest ≠ []
  whole : ¬ HasBlankLine (trim comment.toList) →
    titleAndDescription comment = ("", String.ofList (trim comment.toList))

/-- A paragraph other than the first stands in front of the first blank line of line feeds: a blank
line of carriage returns and line feeds comes first, with more than white space between the two. -/
def HidesParagraph (text : List Char) : Prop :=
  ∃ before between rest,
    FirstCut [lineFeedGap] text (before ++ carriageReturnGap ++ between) lineFeedGap rest ∧
      ¬ IsBlank between

theorem isBlank_of_mem_gaps (h : gap ∈ gaps) : IsBlank gap := by
  rcases List.mem_pair.mp h with rfl | rfl <;> decide

theorem ne_nil_of_mem_gaps (h : gap ∈ gaps) : gap ≠ [] := by
  rcases List.mem_pair.mp h with rfl | rfl <;> exact List.cons_ne_nil _ _

theorem isBlank_carriageReturnGap : IsBlank carriageReturnGap :=
  isBlank_of_mem_gaps (by simp [gaps])

/-! ### Where the code divides -/

theorem titleAndDescription_of_split
    (h : splitParagraph? (trim comment.toList) = some (before, rest)) :
    titleAndDescription comment = (String.ofList (trim before), String.ofList (trim rest)) := by
  simp only [titleAndDescription, h]

theorem splitParagraph?_of_lineFeed (h : FirstCut [lineFeedGap] text before gap rest) :
    splitParagraph? text = some (before, rest) := by
  obtain rfl := List.mem_singleton.mp h.mem
  rw [splitParagraph?, splitFirst?_eq_some_iff.mpr h, Option.some_or]

theorem splitParagraph?_of_carriageReturn (hnone : ¬ lineFeedGap <:+: text)
    (h : FirstCut [carriageReturnGap] text before gap rest) :
    splitParagraph? text = some (before, rest) := by
  obtain rfl := List.mem_singleton.mp h.mem
  rw [splitParagraph?, splitFirst?_eq_none_iff.mpr hnone, Option.none_or,
    splitFirst?_eq_some_iff.mpr h]

theorem splitParagraph?_eq_none (h : ¬ HasBlankLine text) : splitParagraph? text = none := by
  have hnone : ∀ gap ∈ gaps, splitFirst? gap text = none := fun gap hgap =>
    splitFirst?_eq_none_iff.mpr fun hpart => h ⟨gap, hgap, hpart⟩
  rw [splitParagraph?, hnone lineFeedGap (by simp [gaps]), hnone carriageReturnGap (by simp [gaps]),
    Option.none_or]

/-! ### The first blank line -/

/-- The first blank line of a text without white space at its ends divides two parts, neither of
which is blank. -/
theorem not_isBlank_of_firstCut {cs : List Char} (h : FirstCut gaps (trim cs) before gap rest) :
    ¬ IsBlank before ∧ ¬ IsBlank rest := by
  have hgap := isBlank_of_mem_gaps h.mem
  have hne := ne_nil_of_mem_gaps h.mem
  constructor
  · intro hbefore
    have hnil := eq_nil_of_trim_eq_append_left h.eq (isBlank_append.mpr ⟨hbefore, hgap⟩)
    exact hne (List.append_eq_nil_iff.mp hnil).2
  · intro hrest
    have heq : trim cs = before ++ (gap ++ rest) := h.eq.trans (List.append_assoc ..)
    have hnil := eq_nil_of_trim_eq_append_right heq (isBlank_append.mpr ⟨hgap, hrest⟩)
    exact hne (List.append_eq_nil_iff.mp hnil).1

theorem not_hasBlankLine_of_firstCut (h : FirstCut gaps text before gap rest) :
    ¬ HasBlankLine (trim before) := by
  rintro ⟨other, hother, hpart⟩
  obtain ⟨front, behind, heq, -, -⟩ := exists_trim before
  have htrim : trim before <:+: before := ⟨front, behind, heq.symm⟩
  exact h.not_infix (fun _ => ne_nil_of_mem_gaps) hother (hpart.trans htrim)

/-- Where line feeds make up a blank line behind one of carriage returns: right at its end, or with
something between the two. -/
theorem lineFeed_behind {middle behind : List Char}
    (h : carriageReturnGap ++ rest = middle ++ lineFeedGap ++ behind) :
    (middle = ['\r', '\n', '\r'] ∧ rest = '\n' :: behind) ∨
      ∃ between, middle = carriageReturnGap ++ between ∧
        rest = between ++ lineFeedGap ++ behind := by
  match middle with
  | [] | [_] | [_, _] => simp [carriageReturnGap, lineFeedGap] at h
  | [_, _, _] =>
    obtain ⟨rfl, rfl, rfl, rfl⟩ := by simpa [carriageReturnGap, lineFeedGap] using h
    exact .inl ⟨rfl, rfl⟩
  | _ :: _ :: _ :: _ :: between =>
    obtain ⟨rfl, rfl, rfl, rfl, rfl⟩ := by simpa [carriageReturnGap, lineFeedGap] using h
    exact .inr ⟨between, rfl, by simp [lineFeedGap]⟩

/-- If no paragraph is hidden, a comment is divided into the same parts at its first blank line of
line feeds as at its first blank line. -/
theorem trim_eq_of_firstCut (hhidden : ¬ HidesParagraph text) {front behind : List Char}
    (h : FirstCut gaps text before gap rest)
    (hfeed : FirstCut [lineFeedGap] text front lineFeedGap behind) :
    trim front = trim before ∧ trim behind = trim rest := by
  rcases List.mem_pair.mp h.mem with rfl | rfl
  · obtain ⟨rfl, rfl⟩ := (h.of_subset (by simp [gaps]) hfeed.mem).unique hfeed
    exact ⟨rfl, rfl⟩
  · have hlength : before.length ≤ front.length :=
      h.first lineFeedGap (by simp [gaps]) front behind hfeed.eq
    have hbefore : before <+: text := ⟨_, (h.eq.trans (List.append_assoc ..)).symm⟩
    have hfront : front <+: text := ⟨_, (hfeed.eq.trans (List.append_assoc ..)).symm⟩
    obtain ⟨middle, rfl⟩ := List.prefix_of_prefix_length_le hbefore hfront hlength
    have heq : carriageReturnGap ++ rest = middle ++ lineFeedGap ++ behind := by
      have htext := h.eq.symm.trans hfeed.eq
      simpa only [List.append_assoc, List.append_cancel_left_eq] using htext
    rcases lineFeed_behind heq with ⟨rfl, rfl⟩ | ⟨between, rfl, rfl⟩
    · have hfront : IsBlank ['\r', '\n', '\r'] := by decide
      have hbehind : IsBlank ['\n'] := by decide
      exact ⟨trim_append_right before hfront, (trim_append_left hbehind behind).symm⟩
    · have hbetween : IsBlank between := by
        by_contra hnot
        exact hhidden ⟨before, between, behind, by simpa only [List.append_assoc] using hfeed, hnot⟩
      have hfeeds : IsBlank lineFeedGap := isBlank_of_mem_gaps (by simp [gaps])
      have hfront : IsBlank (carriageReturnGap ++ between) :=
        isBlank_append.mpr ⟨isBlank_carriageReturnGap, hbetween⟩
      have hbehind : IsBlank (between ++ lineFeedGap) := isBlank_append.mpr ⟨hbetween, hfeeds⟩
      exact ⟨trim_append_right before hfront, (trim_append_left hbehind behind).symm⟩

/-- A title that takes in a hidden paragraph has a blank line. -/
theorem hasBlankLine_of_hidden {cs between : List Char}
    (h : trim cs = before ++ carriageReturnGap ++ between ++ rest) (hbetween : ¬ IsBlank between) :
    HasBlankLine (trim (before ++ carriageReturnGap ++ between)) := by
  have hbefore : ¬ IsBlank before := by
    intro hblank
    have heq : trim cs = (before ++ carriageReturnGap) ++ (between ++ rest) :=
      h.trans (List.append_assoc ..)
    have hnil := eq_nil_of_trim_eq_append_left heq
      (isBlank_append.mpr ⟨hblank, isBlank_carriageReturnGap⟩)
    exact absurd (List.append_eq_nil_iff.mp hnil).2 (List.cons_ne_nil _ _)
  exact ⟨carriageReturnGap, by simp [gaps], infix_trim hbefore hbetween⟩

/-! ### Whether a comment is divided there -/

theorem divided_of_not_hidesParagraph (h : ¬ HidesParagraph (trim comment.toList)) :
    Divided comment where
  split before gap rest hcut := by
    obtain ⟨hbefore, hrest⟩ := not_isBlank_of_firstCut hcut
    refine ⟨?_, fun hnil => hbefore (trim_eq_nil_iff.mp hnil), not_hasBlankLine_of_firstCut hcut,
      fun hnil => hrest (trim_eq_nil_iff.mp hnil)⟩
    by_cases hfeed : lineFeedGap <:+: trim comment.toList
    · obtain ⟨front, _, behind, hfirst⟩ :=
        exists_firstCut ⟨lineFeedGap, List.mem_singleton_self _, hfeed⟩
      obtain rfl := List.mem_singleton.mp hfirst.mem
      obtain ⟨hfront, hbehind⟩ := trim_eq_of_firstCut h hcut hfirst
      rw [titleAndDescription_of_split (splitParagraph?_of_lineFeed hfirst), hfront, hbehind]
    · have hgap : gap = carriageReturnGap := by
        refine (List.mem_pair.mp hcut.mem).resolve_left ?_
        rintro rfl
        exact hfeed ⟨before, rest, hcut.eq.symm⟩
      have hfirst : FirstCut [carriageReturnGap] (trim comment.toList) before gap rest :=
        hcut.of_subset (by simp [gaps]) (by simp [hgap])
      exact titleAndDescription_of_split (splitParagraph?_of_carriageReturn hfeed hfirst)
  whole hnone := by
    simp only [titleAndDescription, splitParagraph?_eq_none hnone]

theorem not_hidesParagraph_of_divided (h : Divided comment) :
    ¬ HidesParagraph (trim comment.toList) := by
  rintro ⟨before, between, rest, hfeed, hbetween⟩
  have hparts := titleAndDescription_of_split (splitParagraph?_of_lineFeed hfeed)
  obtain ⟨front, gap, behind, hcut⟩ : ∃ front gap behind,
      FirstCut gaps (trim comment.toList) front gap behind :=
    exists_firstCut ⟨lineFeedGap, by simp [gaps], _, _, hfeed.eq.symm⟩
  obtain ⟨hsame, -, htitle, -⟩ := h.split front gap behind hcut
  have heq : trim (before ++ carriageReturnGap ++ between) = trim front :=
    String.ofList_injective (Prod.mk.inj (hparts.symm.trans hsame)).1
  have htext : trim comment.toList =
      before ++ carriageReturnGap ++ between ++ (lineFeedGap ++ rest) :=
    hfeed.eq.trans (List.append_assoc ..)
  exact htitle (heq ▸ hasBlankLine_of_hidden htext hbetween)

/-- **Where a comment is divided.** A comment is divided at its first blank line exactly if no
paragraph but the first stands in front of its first blank line of line feeds. -/
theorem divided_iff_not_hidesParagraph (comment : String) :
    Divided comment ↔ ¬ HidesParagraph (trim comment.toList) :=
  ⟨not_hidesParagraph_of_divided, divided_of_not_hidesParagraph⟩

/-- A comment whose lines end in both ways keeps its second paragraph in the title. -/
theorem not_divided_mixed : ¬ Divided "A\r\n\r\nB\n\nC" := by
  intro h
  have hcut : FirstCut gaps (trim "A\r\n\r\nB\n\nC".toList) ['A'] carriageReturnGap
      "B\n\nC".toList := by
    refine ⟨by simp [gaps], by decide, fun other hother before rest heq => ?_⟩
    refine List.length_pos_iff.mpr ?_
    rintro rfl
    rcases List.mem_pair.mp hother with rfl | rfl <;> cases heq
  have hparts := (h.split _ _ _ hcut).1
  revert hparts
  decide

end Comment

end MessageSchema
