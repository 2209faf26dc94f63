import Mathlib.Data.List.Basic

/-!
# What patterns match

Keys that stand for numbers and truth values are told apart by patterns. A pattern is a text, and what
it matches is what its regular expression matches somewhere in a text. Only a part of the language is
read here: characters, ranges of characters, groups with alternatives, parts that are optional or
repeated, and the two ends of the text. Any other pattern has no meaning, rather than a wrong one. A
`Pattern` would not do instead: it keeps of an expression only what tells whether it is well formed.

An expression is run by listing the places at which its matches end. Nothing in an expression asks for
a match to be the longest or the first, so that the order of the list does not matter.

## Main definitions

* `Regex`: an expression; `Regex.read?`: the expression that a text is.
* `Regex.behind`: the places behind the matches that begin at a place.
* `Regex.occursIn`: whether there is a match anywhere in a text.

## Main results

* `Regex.occursIn_numeral`: the pattern of whole numbers matches the texts of digits that may have a
  sign in front.
* `Regex.occursIn_truth`: the pattern of truth values matches the two of them.
-/

namespace MessageSchema

/-- A regular expression. -/
inductive Regex where
  | empty
  /-- The beginning of the text. -/
  | atStart
  /-- The end of the text. -/
  | atEnd
  | range (first last : Char)
  | seq (front back : Regex)
  | either (left right : Regex)
  | maybe (body : Regex)
  /-- The expression once or several times in a row. -/
  | repeated (body : Regex)
deriving DecidableEq

namespace Regex

/-! ### Matching -/

/-- A place in a text: whether it is the beginning, and what follows. -/
structure Place where
  isStart : Bool
  rest : List Char
deriving DecidableEq

/-- The places that several steps in a row lead to, at least one and no more than a bound. -/
def repeatedly (step : Place → List Place) : ℕ → Place → List Place
  | 0, _ => []
  | bound + 1, place => (step place).flatMap fun next => next :: repeatedly step bound next

/-- The places behind the matches that begin at a place. A repetition that goes on without reading
anything gets nowhere, so that one time more than there are characters suffices. -/
def behind : Regex → Place → List Place
  | .empty, place => [place]
  | .atStart, place => if place.isStart then [place] else []
  | .atEnd, place => if place.rest.isEmpty then [place] else []
  | .range first last, place => match place.rest with
    | c :: rest => if first ≤ c ∧ c ≤ last then [⟨false, rest⟩] else []
    | [] => []
  | .seq front back, place => (front.behind place).flatMap back.behind
  | .either left right, place => left.behind place ++ right.behind place
  | .maybe body, place => body.behind place ++ [place]
  | .repeated body, place => repeatedly body.behind (place.rest.length + 1) place

/-- All places of a text. -/
def places (text : String) : List Place :=
  ⟨true, text.toList⟩ :: text.toList.tails.tail.map (⟨false, ·⟩)

/-- Whether the expression matches somewhere in a text. -/
def occursIn (regex : Regex) (text : String) : Bool :=
  (places text).any fun place => !(regex.behind place).isEmpty

/-! ### Reading -/

/-- What has been read of a group: the alternatives that are complete, and the parts of the last one
in reverse. -/
structure Frame where
  left : Option Regex := none
  parts : List Regex := []
  /-- Whether the last part may be made optional or repeated. -/
  isOpen : Bool := false

namespace Frame

/-- The last alternative. -/
def last (frame : Frame) : Regex :=
  match frame.parts with
  | [] => .empty
  | part :: earlier => earlier.foldl (fun back front => .seq front back) part

/-- The group as an expression. -/
def regex (frame : Frame) : Regex :=
  match frame.left with
  | none => frame.last
  | some left => .either left frame.last

/-- The group with one more part. -/
def push (part : Regex) (frame : Frame) : Frame :=
  { frame with parts := part :: frame.parts, isOpen := true }

/-- The group with one end of the text as one more part. -/
def pushEnd (part : Regex) (frame : Frame) : Frame :=
  { frame with parts := part :: frame.parts, isOpen := false }

/-- The group with its last part made optional or repeated, which is done only once. -/
def wrap? (wrap : Regex → Regex) (frame : Frame) : Option Frame :=
  match frame.isOpen, frame.parts with
  | true, part :: earlier => some { frame with parts := wrap part :: earlier, isOpen := false }
  | _, _ => none

end Frame

/-- Characters with a meaning of their own. -/
def marks : List Char :=
  ['^', '$', '(', ')', '|', '?', '+', '*', '.', '[', ']', '\x7b', '\x7d', '\\']

/-- Reads on in a group, with the groups around it, the innermost first. -/
def readOn : List Char → Frame → List Frame → Option Regex
  | [], frame, [] => some frame.regex
  | [], _, _ :: _ => none
  | '^' :: cs, frame, outer => readOn cs (frame.pushEnd .atStart) outer
  | '$' :: cs, frame, outer => readOn cs (frame.pushEnd .atEnd) outer
  | '(' :: cs, frame, outer => readOn cs {} (frame :: outer)
  | ')' :: cs, frame, around :: outer => readOn cs (around.push frame.regex) outer
  | '|' :: cs, frame, outer => readOn cs { left := some frame.regex } outer
  | '?' :: cs, frame, outer => do readOn cs (← frame.wrap? .maybe) outer
  | '+' :: cs, frame, outer => do readOn cs (← frame.wrap? .repeated) outer
  | '[' :: first :: '-' :: last :: ']' :: cs, frame, outer =>
    if first ∈ marks ∨ last ∈ marks ∨ last < first then none
    else readOn cs (frame.push (.range first last)) outer
  | c :: cs, frame, outer =>
    if c ∈ marks then none else readOn cs (frame.push (.range c c)) outer

/-- The expression that a text is, if it is one of those that are read here. -/
def read? (text : String) : Option Regex :=
  readOn text.toList {} []

/-! ### Where matches end -/

variable {place next : Place} {cs : List Char} {start : Bool}

@[simp] theorem behind_atStart : (atStart).behind ⟨true, cs⟩ = [⟨true, cs⟩] := rfl

@[simp] theorem mem_behind_range {first last : Char} : next ∈ (range first last).behind place ↔
    ∃ c rest, place.rest = c :: rest ∧ first ≤ c ∧ c ≤ last ∧ next = ⟨false, rest⟩ := by
  obtain ⟨_, _ | ⟨c, rest⟩⟩ := place
  · simp [behind]
  · simp [behind, and_assoc]

@[simp] theorem mem_behind_seq {front back : Regex} :
    next ∈ (seq front back).behind place ↔ ∃ m ∈ front.behind place, next ∈ back.behind m :=
  List.mem_flatMap

@[simp] theorem mem_behind_either {left right : Regex} :
    next ∈ (either left right).behind place ↔ next ∈ left.behind place ∨ next ∈ right.behind place :=
  List.mem_append

@[simp] theorem mem_behind_maybe {body : Regex} :
    next ∈ (maybe body).behind place ↔ next ∈ body.behind place ∨ next = place := by
  simp [behind]

@[simp] theorem mem_behind_atEnd :
    next ∈ (atEnd).behind place ↔ next = place ∧ place.rest = [] := by
  obtain ⟨start, _ | ⟨c, rest⟩⟩ := place <;> simp [behind]

/-- An expression that is bound to the beginning only matches there. -/
theorem occursIn_atStart {regex : Regex} {text : String} :
    (seq .atStart regex).occursIn text = true ↔
      ∃ next, next ∈ regex.behind ⟨true, text.toList⟩ := by
  have hlater : ∀ cs, (seq .atStart regex).behind ⟨false, cs⟩ = [] := fun _ => rfl
  have hfirst : (seq .atStart regex).behind ⟨true, text.toList⟩ =
      regex.behind ⟨true, text.toList⟩ := List.append_nil _
  rw [occursIn, places, List.any_cons, hfirst, Bool.or_eq_true, List.any_map]
  simp [Function.comp_def, hlater, List.eq_nil_iff_forall_not_mem]

/-- A repeated range of characters leads to the end of a text if all of the text is in the range. -/
theorem exists_behind_repeated {first last : Char} :
    (∃ next ∈ (repeated (range first last)).behind ⟨start, cs⟩, next.rest = []) ↔
      cs ≠ [] ∧ ∀ c ∈ cs, first ≤ c ∧ c ≤ last := by
  show (∃ next ∈ repeatedly (range first last).behind (cs.length + 1) ⟨start, cs⟩, next.rest = []) ↔ _
  induction cs generalizing start with
  | nil => simp [repeatedly, behind]
  | cons c rest ih =>
    by_cases hc : first ≤ c ∧ c ≤ last
    · have hstep : (range first last).behind ⟨start, c :: rest⟩ = [⟨false, rest⟩] := if_pos hc
      rw [List.length_cons, repeatedly, hstep, List.flatMap_singleton, List.exists_mem_cons_iff, ih]
      cases rest with
      | nil => simp [hc]
      | cons d others => simp [hc]
    · have hstep : (range first last).behind ⟨start, c :: rest⟩ = [] := if_neg hc
      simp [repeatedly, hstep, hc]

/-! ### Words -/

/-- The expression of a word. -/
def word : Char → List Char → Regex
  | c, [] => .range c c
  | c, d :: rest => .seq (.range c c) (word d rest)

theorem mem_behind_char {c : Char} : next ∈ (range c c).behind place ↔
    place.rest = c :: next.rest ∧ next.isStart = false := by
  obtain ⟨start, rest⟩ := next
  rw [mem_behind_range]
  constructor
  · rintro ⟨d, rest, hplace, hle, hge, h⟩
    obtain rfl := Char.le_antisymm hle hge
    cases h
    exact ⟨hplace, rfl⟩
  · rintro ⟨hplace, rfl⟩
    exact ⟨c, rest, hplace, Char.le_refl c, Char.le_refl c, rfl⟩

theorem mem_behind_word {c : Char} : next ∈ (word c cs).behind place ↔
    place.rest = c :: cs ++ next.rest ∧ next.isStart = false := by
  induction cs generalizing c place with
  | nil => exact mem_behind_char
  | cons d rest ih =>
    rw [word, mem_behind_seq]
    constructor
    · rintro ⟨m, hm, hnext⟩
      obtain ⟨hrest, hstart⟩ := ih.mp hnext
      exact ⟨by rw [(mem_behind_char.mp hm).1, hrest]; rfl, hstart⟩
    · rintro ⟨hplace, hstart⟩
      exact ⟨⟨false, d :: rest ++ next.rest⟩, mem_behind_char.mpr ⟨hplace, rfl⟩,
        ih.mpr ⟨rfl, hstart⟩⟩

/-! ### The patterns of keys -/

/-- A digit is a character between the first and the last of them. -/
theorem isDigit_iff {c : Char} : c.isDigit = true ↔ '0' ≤ c ∧ c ≤ '9' := by
  simp [Char.isDigit, Char.le_def]

/-- Digits, with or without a sign in front. -/
def numeral : Regex :=
  .seq .atStart (.seq (.maybe (.range '-' '-')) (.seq (.repeated (.range '0' '9')) .atEnd))

theorem read?_numeral : read? "^-?[0-9]+$" = some numeral := by decide

/-- **The pattern of whole numbers matches digits, with or without a sign.** -/
theorem occursIn_numeral {text : String} : numeral.occursIn text = true ↔
    ∃ digits, digits ≠ [] ∧ (∀ d ∈ digits, d.isDigit = true) ∧
      (text.toList = digits ∨ text.toList = '-' :: digits) := by
  have hdigits : ∀ place : Place,
      (∃ next, next ∈ (seq (repeated (range '0' '9')) atEnd).behind place) ↔
        place.rest ≠ [] ∧ ∀ d ∈ place.rest, d.isDigit = true := by
    rintro ⟨start, cs⟩
    simp only [mem_behind_seq, mem_behind_atEnd, isDigit_iff]
    refine Iff.trans ?_ (@exists_behind_repeated cs start '0' '9')
    exact ⟨fun ⟨_, m, hm, _, hend⟩ => ⟨m, hm, hend⟩, fun ⟨m, hm, hend⟩ => ⟨m, m, hm, rfl, hend⟩⟩
  have hsplit : (∃ next, next ∈ (seq (maybe (range '-' '-'))
      (seq (repeated (range '0' '9')) atEnd)).behind ⟨true, text.toList⟩) ↔
      ∃ place ∈ (maybe (range '-' '-')).behind ⟨true, text.toList⟩,
        place.rest ≠ [] ∧ ∀ d ∈ place.rest, d.isDigit = true := by
    simp only [mem_behind_seq, ← hdigits]
    exact ⟨fun ⟨next, m, hm, h⟩ => ⟨m, hm, next, h⟩, fun ⟨m, hm, next, h⟩ => ⟨next, m, hm, h⟩⟩
  rw [numeral, occursIn_atStart, hsplit]
  constructor
  · rintro ⟨⟨start, digits⟩, hm, hne, hall⟩
    refine ⟨digits, hne, hall, ?_⟩
    rcases mem_behind_maybe.mp hm with hm | hm
    · exact .inr (mem_behind_char.mp hm).1
    · exact .inl (Place.mk.inj hm).2.symm
  · rintro ⟨digits, hne, hall, htext | htext⟩
    · exact ⟨⟨true, digits⟩, mem_behind_maybe.mpr (.inr (by rw [htext])), hne, hall⟩
    · exact ⟨⟨false, digits⟩, mem_behind_maybe.mpr (.inl (mem_behind_char.mpr ⟨htext, rfl⟩)), hne,
        hall⟩

/-- One of the two truth values. -/
def truth : Regex :=
  .seq .atStart (.seq (.either (word 't' ['r', 'u', 'e']) (word 'f' ['a', 'l', 's', 'e'])) .atEnd)

theorem read?_truth : read? "^(true|false)$" = some truth := by decide

/-- **The pattern of truth values matches the two of them.** -/
theorem occursIn_truth {text : String} :
    truth.occursIn text = true ↔ text = "true" ∨ text = "false" := by
  rw [truth, occursIn_atStart, String.ext_iff, String.ext_iff]
  simp only [mem_behind_seq, mem_behind_atEnd, mem_behind_either, mem_behind_word]
  constructor
  · rintro ⟨_, m, ⟨hm, -⟩ | ⟨hm, -⟩, -, hend⟩
    · exact .inl (by rw [hm, hend]; rfl)
    · exact .inr (by rw [hm, hend]; rfl)
  · rintro (htext | htext)
    · exact ⟨_, ⟨false, []⟩, .inl ⟨htext, rfl⟩, rfl, rfl⟩
    · exact ⟨_, ⟨false, []⟩, .inr ⟨htext, rfl⟩, rfl, rfl⟩

end Regex

end MessageSchema
