import MessageSchema.Proofs.Numeral
import MessageSchema.Proofs.Program.Lexeme
import MessageSchema.Text.Quoted

/-!
# Texts that are read piece by piece

Some pieces of a text leave nothing unfinished, and after them reading begins anew. A name or a number
goes on as far as it can, so that what follows it must begin with a delimiter. Both kinds of pieces are
put together by the lemmas below. A piece in ASCII is read the same way under every alphabet, and for a
constant piece reading it is a computation.

## Main definitions

* `Program.Closed`: a piece after which reading begins anew.
* `Program.Reads`: a piece that is read when a delimiter follows.

## Main results

* `Program.closed_of_ascii`: a constant piece is read by computation.
* `Program.closed_quote`: a quoted text is read as the text.
* `Program.reads_name`, `Program.reads_toDigits`, `Program.reads_numeral`: names and numbers.
-/

namespace MessageSchema.Program

variable {alphabet : Alphabet} {cs cs' : List Char} {ls ls' : List Lexeme}

/-! ### Pieces -/

/-- A piece is read as some lexemes, and after it reading begins anew. -/
def Closed (alphabet : Alphabet) (cs : List Char) (ls : List Lexeme) : Prop :=
  scan alphabet .between cs = (ls, .between)

/-- Whether a character belongs to no name and to no number. -/
def isDelimiter (c : Char) : Bool :=
  c.toNat < 128 && !c.isAlphanum && !(['_', '.', '-', '+'].contains c)

/-- A piece is read as some lexemes when a delimiter follows. -/
def Reads (alphabet : Alphabet) (cs : List Char) (ls : List Lexeme) : Prop :=
  ∀ d rest, isDelimiter d = true → scan alphabet .between (cs ++ d :: rest) =
    (ls ++ (scan alphabet .between (d :: rest)).1, (scan alphabet .between (d :: rest)).2)

theorem closed_nil : Closed alphabet [] [] := rfl

theorem Closed.append (h : Closed alphabet cs ls) (h' : Closed alphabet cs' ls') :
    Closed alphabet (cs ++ cs') (ls ++ ls') := by
  unfold Closed at *
  rw [scan_append, h, h']

theorem Closed.reads (h : Closed alphabet cs ls) : Reads alphabet cs ls := by
  intro d rest _
  unfold Closed at h
  rw [scan_append, h]

theorem Closed.append_reads (h : Closed alphabet cs ls) (h' : Reads alphabet cs' ls') :
    Reads alphabet (cs ++ cs') (ls ++ ls') := by
  intro d rest hd
  unfold Closed at h
  rw [List.append_assoc, scan_append, h, h' d rest hd, List.append_assoc]

/-- A delimiter ends a piece. -/
theorem Reads.append_closed {d : Char} (h : Reads alphabet cs ls) (hd : isDelimiter d = true)
    (h' : Closed alphabet (d :: cs') ls') : Closed alphabet (cs ++ d :: cs') (ls ++ ls') := by
  unfold Closed at *
  rw [h d cs' hd, h']

/-- A delimiter ends a piece, whatever follows it. -/
theorem Reads.append_reads {d : Char} (h : Reads alphabet cs ls) (hd : isDelimiter d = true)
    (h' : Reads alphabet (d :: cs') ls') : Reads alphabet (cs ++ d :: cs') (ls ++ ls') := by
  intro e rest he
  have hrest := h' e rest he
  rw [List.cons_append] at hrest
  rw [List.append_assoc, List.cons_append, h d (cs' ++ e :: rest) hd, hrest, List.append_assoc]

theorem closed_blanks (k : ℕ) : Closed alphabet (List.replicate k ' ') [] := by
  induction k with
  | zero => rfl
  | succ k ih =>
    unfold Closed at *
    simp [List.replicate_succ, scan_cons, step, starting, ih, isBlank, Alphabet.isFirst]

/-! ### Constant pieces -/

/-- The alphabet without characters beyond ASCII. -/
def plain : Alphabet where
  begins _ := false
  continues _ := false

theorem step_plain {c : Char} (hc : c.toNat < 128) (mode : Mode) :
    step alphabet mode c = step plain mode c := by
  have hfirst : alphabet.isFirst c = plain.isFirst c := by
    simp [Alphabet.isFirst, Nat.not_le.mpr hc]
  have hfurther : alphabet.isFurther c = plain.isFurther c := by
    simp [Alphabet.isFurther, Nat.not_le.mpr hc]
  cases mode <;> simp [step, starting, hfirst, hfurther]

theorem scan_plain (hcs : ∀ c ∈ cs, c.toNat < 128) (mode : Mode) :
    scan alphabet mode cs = scan plain mode cs := by
  induction cs generalizing mode with
  | nil => rfl
  | cons c rest ih =>
    rw [scan_cons, scan_cons, step_plain (hcs c (by simp)), ih fun d hd => hcs d (by simp [hd])]

/-- A constant piece is read by computation, whatever has been read before it. -/
theorem scan_of_ascii {s : String} {mode mode' : Mode}
    (h : (s.toList.all (·.toNat < 128) && scan plain mode s.toList == (ls, mode')) = true) :
    scan alphabet mode s.toList = (ls, mode') := by
  obtain ⟨hascii, hscan⟩ := Bool.and_eq_true_iff.mp h
  have hascii : ∀ c ∈ s.toList, c.toNat < 128 := by simpa using hascii
  rw [scan_plain hascii]
  simpa using hscan

/-- **A constant piece is read by computation.** -/
theorem closed_of_ascii {s : String}
    (h : (s.toList.all (·.toNat < 128) && scan plain .between s.toList == (ls, .between)) = true) :
    Closed alphabet s.toList ls :=
  scan_of_ascii h

/-! ### Names -/

theorem isFurther_of_isDelimiter {d : Char} (hd : isDelimiter d = true) :
    alphabet.isFurther d = false := by
  simp [isDelimiter] at hd
  simp [Alphabet.isFurther, hd]

theorem scan_word (read : List Char) (hcs : ∀ c ∈ cs, alphabet.isFurther c = true) :
    scan alphabet (.word read) cs = ([], .word (read ++ cs)) := by
  induction cs generalizing read with
  | nil => simp [scan]
  | cons c rest ih =>
    have hc : step alphabet (.word read) c = ([], .word (read ++ [c])) :=
      if_pos (hcs c (by simp))
    simp [scan_cons, hc, ih (read ++ [c]) fun d hd => hcs d (by simp [hd])]

theorem isAlpha_of_isDigit {c : Char} (h : c.isDigit = true) : c.isAlpha = false := by
  have hnine : c.val.toNat ≤ 57 := (Char.isDigit_iff_toNat.mp h).2
  have hupper : ¬ 'A'.val ≤ c.val := fun h => by
    have : 65 ≤ c.val.toNat := UInt32.le_iff_toNat_le.mp h
    omega
  have hlower : ¬ 'a'.val ≤ c.val := fun h => by
    have : 97 ≤ c.val.toNat := UInt32.le_iff_toNat_le.mp h
    omega
  have hneither : c.isUpper = false ∧ c.isLower = false :=
    ⟨decide_eq_false fun h => hupper h.1, Bool.and_eq_false_imp.mpr fun h =>
      absurd (of_decide_eq_true h) hlower⟩
  exact Bool.or_eq_false_iff.mpr hneither

theorem isFirst_of_isDigit {c : Char} (h : c.isDigit = true) : alphabet.isFirst c = false := by
  have hsmall : ¬ 128 ≤ c.toNat := by
    have hrange := Char.isDigit_iff_toNat.mp h
    have hnine : '9'.toNat = 57 := rfl
    omega
  have hunderscore : c ≠ '_' := by
    rintro rfl
    simp at h
  simp [Alphabet.isFirst, isAlpha_of_isDigit h, hsmall, hunderscore]

theorem starting_of_isFirst {c : Char} (hc : alphabet.isFirst c = true) :
    starting alphabet c = ([], .word [c]) := by
  have hslash : c ≠ '/' := by
    rintro rfl
    simp [Alphabet.isFirst] at hc
  have hquote : c ≠ '"' := by
    rintro rfl
    simp [Alphabet.isFirst] at hc
  have hdigit : c.isDigit = false := by
    by_contra hdigit
    rw [isFirst_of_isDigit (by simpa using hdigit)] at hc
    cases hc
  simp [starting, hslash, hquote, hdigit, hc]

/-- A delimiter ends the name before it. -/
theorem scan_word_delimiter (read rest : List Char) {d : Char} (hd : isDelimiter d = true) :
    scan alphabet (.word read) (d :: rest) =
      (.word (String.ofList read) :: (scan alphabet .between (d :: rest)).1,
        (scan alphabet .between (d :: rest)).2) := by
  simp [scan_cons, step, isFurther_of_isDelimiter hd]

/-- **A name is read.** -/
theorem reads_name {name : String} (h : alphabet.IsName name) :
    Reads alphabet name.toList [.word name] := by
  obtain ⟨c, rest, hname, hc, hrest⟩ := h
  intro d more hd
  have hstep : step alphabet .between c = ([], .word [c]) := starting_of_isFirst hc
  have hword : String.ofList ([c] ++ rest) = name := by
    rw [List.singleton_append, ← hname, String.ofList_toList]
  rw [hname, List.cons_append, scan_cons, hstep, scan_append, scan_word [c] hrest,
    scan_word_delimiter _ _ hd, hword]
  rfl

/-! ### Numbers -/

/-- The characters of a numeral that go on with it whatever has been read. -/
def isPlainNumeric (c : Char) : Bool :=
  c.isAlphanum || c == '.'

theorem scan_number (read : List Char) (hcs : ∀ c ∈ cs, isPlainNumeric c = true) :
    scan alphabet (.number read) cs = ([], .number (read ++ cs)) := by
  induction cs generalizing read with
  | nil => simp [scan]
  | cons c rest ih =>
    have hcontinues : continuesNumber read c = true := by
      have hc := hcs c (by simp)
      simp only [isPlainNumeric, Bool.or_eq_true] at hc
      rcases hc with hc | hc <;> simp [continuesNumber, hc]
    have hc : step alphabet (.number read) c = ([], .number (read ++ [c])) := if_pos hcontinues
    simp [scan_cons, hc, ih (read ++ [c]) fun d hd => hcs d (by simp [hd])]

theorem isPlainNumeric_of_isDigit {c : Char} (h : c.isDigit = true) : isPlainNumeric c = true := by
  simp [isPlainNumeric, Char.isAlphanum, h]

/-- A delimiter ends the number before it. -/
theorem scan_number_delimiter (read rest : List Char) {d : Char} (hd : isDelimiter d = true) :
    scan alphabet (.number read) (d :: rest) =
      (numberLexeme read :: (scan alphabet .between (d :: rest)).1,
        (scan alphabet .between (d :: rest)).2) := by
  have hends : continuesNumber read d = false := by
    simp [isDelimiter] at hd
    simp [continuesNumber, hd]
  simp [scan_cons, step, hends]

theorem starting_of_isDigit {c : Char} (hc : c.isDigit = true) :
    starting alphabet c = ([], .number [c]) := by
  have hslash : c ≠ '/' := by
    rintro rfl
    simp at hc
  have hquote : c ≠ '"' := by
    rintro rfl
    simp at hc
  simp [starting, hslash, hquote, hc]

/-- A number that begins with a digit. -/
theorem reads_number (hcs : cs ≠ []) (hdigit : ∀ c ∈ cs.head?, c.isDigit = true)
    (hscan : ∀ read, scan alphabet (.number read) cs.tail = ([], .number (read ++ cs.tail))) :
    Reads alphabet cs [numberLexeme cs] := by
  obtain ⟨c, rest, rfl⟩ := List.exists_cons_of_ne_nil hcs
  intro d more hd
  have hstep : step alphabet .between c = ([], .number [c]) := starting_of_isDigit (hdigit c rfl)
  have hrest : scan alphabet (.number [c]) rest = ([], .number ([c] ++ rest)) := hscan [c]
  rw [List.cons_append, scan_cons, hstep, scan_append, hrest, scan_number_delimiter _ _ hd]
  rfl

/-- **A whole number is read.** -/
theorem reads_toDigits (n : ℕ) : Reads alphabet (Nat.toDigits 10 n) [.whole n] := by
  have hdigits : ∀ c ∈ Nat.toDigits 10 n, c.isDigit = true := fun c hc => isDigit_toDigits hc
  have hlexeme : numberLexeme (Nat.toDigits 10 n) = .whole n := by
    unfold numberLexeme
    rw [if_pos (List.all_eq_true.mpr hdigits), readNatural_toDigits]
    rfl
  rw [← hlexeme]
  refine reads_number Nat.toDigits_ne_nil (fun c hc => hdigits c (List.mem_of_mem_head? hc))
    fun read => scan_number read fun c hc => ?_
  exact isPlainNumeric_of_isDigit (hdigits c (List.mem_of_mem_tail hc))

/-- An exponent goes on with a number; its sign stands behind the mark. -/
theorem scan_exponentText (read : List Char) (exponent : Option ℤ) :
    scan alphabet (.number read) (exponentText exponent) =
      ([], .number (read ++ exponentText exponent)) := by
  cases exponent with
  | none => simp [exponentText, scan]
  | some e =>
    have hdigits : ∀ c ∈ Nat.toDigits 10 e.natAbs, isPlainNumeric c = true := fun c hc =>
      isPlainNumeric_of_isDigit (isDigit_toDigits hc)
    have hmark : step alphabet (.number read) 'e' = ([], .number (read ++ ['e'])) := rfl
    by_cases he : e < 0
    · have hsign : step alphabet (.number (read ++ ['e'])) '-' =
          ([], .number (read ++ ['e'] ++ ['-'])) := by
        simp [step, continuesNumber]
      simp [exponentText, he, scan_cons, hmark, hsign, scan_number _ hdigits]
    · simp [exponentText, he, scan_cons, hmark, scan_number _ hdigits]

/-- **A decimal numeral is read.** -/
theorem reads_numeral {numeral : Numeral} {x : Binary64} (h : numeral.Proper)
    (hx : readDecimal numeral.text = some x) : Reads alphabet numeral.text [.real x] := by
  have hplaces : ∀ c ∈ placesText numeral.places, isPlainNumeric c = true := by
    intro c hc
    unfold placesText at hc
    split at hc
    · simp at hc
    · rcases List.mem_cons.mp hc with rfl | hc
      · rfl
      · exact isPlainNumeric_of_isDigit (h.places c hc)
  have hfractional : numeral.text.all Char.isDigit = false := by
    rw [List.all_eq_false]
    rcases h.fractional with hne | hne
    · exact ⟨'.', by simp [Numeral.text, placesText, hne], by decide⟩
    · obtain ⟨e, he⟩ := Option.ne_none_iff_exists'.mp hne
      exact ⟨'e', by simp [Numeral.text, exponentText, he], by decide⟩
  have hlexeme : numberLexeme numeral.text = .real x := by
    simp [numberLexeme, hfractional, hx]
  obtain ⟨c, rest, hwhole⟩ := List.exists_cons_of_ne_nil h.nonempty
  rw [← hlexeme]
  refine reads_number (by simp [Numeral.text, h.nonempty]) (fun d hd => ?_) fun read => ?_
  · obtain rfl : c = d := by simpa [Numeral.text, hwhole] using hd
    exact h.whole c (by simp [hwhole])
  · have hrest : ∀ d ∈ rest, isPlainNumeric d = true := fun d hd =>
      isPlainNumeric_of_isDigit (h.whole d (by simp [hwhole, hd]))
    simp [Numeral.text, hwhole, scan_append, scan_number _ hrest, scan_number _ hplaces,
      scan_exponentText]

/-! ### Quoted texts -/

theorem characterOf_toDigits (c : Char) : characterOf? (Nat.toDigits 16 c.toNat) = some c := by
  have hlength : (Nat.toDigits 16 c.toNat).length ≤ 6 := by
    refine (Nat.length_toDigits_le_iff (by decide) (by decide)).mpr ?_
    have hvalid : c.toNat < 1114112 := by
      have := c.valid
      rcases this with h | h
      · have : c.toNat < 55296 := h
        omega
      · exact h.2
    omega
  have hvalid : c.toNat.isValidChar := c.valid
  simp [characterOf?, hlength, readNatural_toDigits_sixteen, hvalid]

/-- A digit of an escape by number does not end it. -/
theorem ne_brace_of_mem_toDigits {n : ℕ} {c : Char} (hc : c ∈ Nat.toDigits 16 n) : c ≠ '\x7d' := by
  rintro rfl
  have hread := digitsValue_toDigits (by decide : 1 < 16) le_rfl n
  obtain ⟨before, after, hsplit⟩ := List.append_of_mem hc
  have hnone : digitValue 16 '\x7d' = none := by decide
  rw [hsplit, digitsValue_append] at hread
  cases hbefore : digitsValue 16 before <;> simp [hbefore, hnone] at hread

theorem scan_code (read digits : List Char) (hcs : ∀ c ∈ cs, c ≠ '\x7d') :
    scan alphabet (.code read digits) cs = ([], .code read (digits ++ cs)) := by
  induction cs generalizing digits with
  | nil => simp [scan]
  | cons c rest ih =>
    have hc : step alphabet (.code read digits) c = ([], .code read (digits ++ [c])) :=
      if_neg (hcs c (by simp))
    simp [scan_cons, hc, ih (digits ++ [c]) fun d hd => hcs d (by simp [hd])]

/-- One character inside the quotes is read as itself. -/
theorem scan_escape (read : List Char) (c : Char) :
    scan alphabet (.text read) (Text.escape c) = ([], .text (read ++ [c])) := by
  unfold Text.escape
  split
  · rfl
  · rfl
  · rfl
  · rfl
  · rfl
  · rfl
  · rename_i hquote hbackslash
    split
    · have hopen : scan alphabet (.text read) ['\\', 'u', '\x7b'] = ([], .code read []) := rfl
      have hclose : scan alphabet (.code read (Nat.toDigits 16 c.toNat)) ['\x7d'] =
          ([], .text (read ++ [c])) := by
        simp [scan, step, characterOf_toDigits]
      have hdigits : scan alphabet (.code read []) (Nat.toDigits 16 c.toNat) =
          ([], .code read (Nat.toDigits 16 c.toNat)) :=
        scan_code read [] fun d hd => ne_brace_of_mem_toDigits hd
      have hsplit : '\\' :: 'u' :: '\x7b' :: Nat.toDigits 16 c.toNat ++ ['\x7d'] =
          ['\\', 'u', '\x7b'] ++ (Nat.toDigits 16 c.toNat ++ ['\x7d']) := rfl
      rw [hsplit, scan_append, hopen, scan_append, hdigits, hclose]
      rfl
    · have hstep : step alphabet (.text read) c = ([], .text (read ++ [c])) := by
        rw [step, if_neg hquote, if_neg hbackslash]
      simp [scan, hstep]

/-- **A quoted text is read as the text.** -/
theorem closed_quote (s : String) : Closed alphabet (Text.quote s).toList [.text s] := by
  have hinside : ∀ read cs, scan alphabet (.text read) (cs.flatMap Text.escape) =
      ([], .text (read ++ cs)) := by
    intro read cs
    induction cs generalizing read with
    | nil => simp [scan]
    | cons c rest ih => simp [scan_append, scan_escape, ih]
  have hopen : step alphabet .between '"' = ([], .text []) := rfl
  unfold Closed Text.quote
  rw [String.toList_ofList, List.cons_append, scan_cons, hopen, scan_append, hinside]
  simp [scan, step]

/-! ### Comments -/

/-- A text that stays on one line. -/
def OneLine (s : String) : Prop :=
  ∀ c ∈ s.toList, c ≠ '\n' ∧ c ≠ '\r'

instance (s : String) : Decidable (OneLine s) :=
  decidable_of_iff ((s.toList.all fun c => c ≠ '\n' ∧ c ≠ '\r') = true) (by simp [OneLine])

theorem OneLine.append {s t : String} (hs : OneLine s) (ht : OneLine t) : OneLine (s ++ t) := by
  intro c hc
  rw [String.toList_append] at hc
  exact (List.mem_append.mp hc).elim (hs c) (ht c)

/-- A comment goes on to the end of its line. -/
theorem scan_comment {s : String} (hs : OneLine s) :
    scan alphabet .comment s.toList = ([], .comment) := by
  suffices hscan : ∀ cs : List Char, (∀ c ∈ cs, c ≠ '\n' ∧ c ≠ '\r') →
      scan alphabet .comment cs = ([], .comment) from hscan s.toList hs
  intro cs hcs
  induction cs with
  | nil => rfl
  | cons c rest ih =>
    obtain ⟨hfeed, hreturn⟩ := hcs c (by simp)
    have hstep : step alphabet .comment c = ([], .comment) := by
      rw [step, if_neg hreturn, if_neg hfeed]
    simp [scan_cons, hstep, ih fun d hd => hcs d (by simp [hd])]

end MessageSchema.Program
