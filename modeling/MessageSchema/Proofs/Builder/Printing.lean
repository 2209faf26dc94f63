import MessageSchema.Proofs.Binary64.Layout
import MessageSchema.Proofs.Builder.Parsing
import MessageSchema.Proofs.Program.Scanning

/-!
# The text of emitted code has its lexemes

An expression that ends with a name or a number is complete once a delimiter follows, and every
expression in emitted code is followed by one. Margins and line breaks are blanks, so that the level of
indentation does not matter.

## Main results

* `Builder.reads_print`: the text of a piece of code is read as its lexemes.
-/

namespace MessageSchema.Builder

open Program

variable {alphabet : Alphabet}

/-! ### Constants and numbers -/

theorem closed_indent (level : ℕ) : Closed alphabet (indent level).toList [] := by
  rw [indent, String.toList_ofList]
  exact closed_blanks (4 * level)

theorem closed_ownedText (s : String) : Closed alphabet (ownedText s).toList (lexemesOfText s) := by
  have hmethod : Closed alphabet ".to_string()".toList
      [.mark '.', .word "to_string", .mark '(', .mark ')'] := closed_of_ascii (by decide +kernel)
  rw [ownedText, String.toList_append]
  exact (closed_quote s).append hmethod

theorem reads_nat (n : ℕ) : Reads alphabet (toString n).toList [.whole n] := by
  have htext : (toString n).toList = Nat.toDigits 10 n := String.toList_ofList
  rw [htext]
  exact reads_toDigits n

/-- A minus sign is a mark of its own. -/
theorem closed_minus : Closed alphabet ['-'] [.mark '-'] :=
  closed_of_ascii (s := "-") (by decide +kernel)

theorem reads_int (n : ℤ) : Reads alphabet (toString n).toList (lexemesOfInt n) := by
  cases n with
  | ofNat m => exact reads_nat m
  | negSucc m =>
    have htext : (toString (Int.negSucc m)).toList = ['-'] ++ (toString (m + 1)).toList := by
      simp [toString, Int.repr]
    have hlexemes : lexemesOfInt (Int.negSucc m) = [.mark '-'] ++ [.whole (m + 1)] :=
      if_pos (Int.negSucc_lt_zero m)
    rw [htext, hlexemes]
    exact closed_minus.append_reads (reads_nat (m + 1))

theorem reads_bound (x : Binary64) :
    Reads alphabet (NumberLayout.code.text x).toList (lexemesOfBound x) := by
  obtain ⟨numeral, hspells, htext⟩ := NumberLayout.exists_numeral x
  have hread : Reads alphabet numeral.text [.real { x with negative := false }] :=
    reads_numeral hspells.proper (NumberLayout.readDecimal_of_spells hspells)
  rw [htext, lexemesOfBound]
  cases hnegative : x.negative with
  | true =>
    have hneg : x.neg = { x with negative := false } := by simp [Binary64.neg, hnegative]
    rw [if_pos rfl, if_pos rfl, hneg]
    exact closed_minus.append_reads hread
  | false =>
    have hself : x = { x with negative := false } := by
      rw [← hnegative]
    rw [hself]
    simpa using hread

theorem reads_count (n : UInt64) : Reads alphabet (toString n).toList [.whole n.toNat] :=
  reads_nat n.toNat

/-! ### Names -/

instance (alphabet : Alphabet) (s : String) : Decidable (alphabet.IsName s) :=
  match h : s.toList with
  | [] => isFalse fun ⟨_, _, hs, _⟩ => by simp [h] at hs
  | c :: rest =>
    decidable_of_iff ((alphabet.isFirst c && rest.all alphabet.isFurther) = true)
      ⟨fun hname => ⟨c, rest, h, by simpa using hname⟩, fun ⟨_, _, hs, hname⟩ => by
        obtain ⟨rfl, rfl⟩ := List.cons.inj (h.symm.trans hs)
        simpa using hname⟩

/-- A name in ASCII is a name under every alphabet. -/
theorem isName_of_plain {s : String} (h : plain.IsName s) : alphabet.IsName s := by
  obtain ⟨c, rest, hs, hfirst, hrest⟩ := h
  refine ⟨c, rest, hs, ?_, fun d hd => ?_⟩
  · have hfirst : c.isAlpha = true ∨ c = '_' := by simpa [Alphabet.isFirst, plain] using hfirst
    rcases hfirst with h | rfl <;> simp [Alphabet.isFirst, *]
  · have hfurther : d.isAlphanum = true ∨ d = '_' := by
      simpa [Alphabet.isFurther, plain] using hrest d hd
    rcases hfurther with h | rfl <;> simp [Alphabet.isFurther, *]

theorem reads_plainName {s : String} (h : plain.IsName s) : Reads alphabet s.toList [.word s] :=
  reads_name (isName_of_plain h)

theorem reads_typeName (type : PrimitiveType) :
    Reads alphabet (typeName type).toList [.word (typeName type)] := by
  cases type <;> exact reads_plainName (by decide)

theorem reads_truth (b : Bool) : Reads alphabet (if b then "true" else "false").toList
    [.word (if b then "true" else "false")] := by
  cases b <;> exact reads_plainName (by decide)

/-! ### Expressions -/

/-- Items with a comma and a blank between them. -/
theorem reads_separated {α : Type} {print : α → String} {lexemes : α → List Lexeme}
    (h : ∀ item, Reads alphabet (print item).toList (lexemes item)) (items : List α) :
    Reads alphabet (", ".intercalate (items.map print)).toList (separated (items.map lexemes)) := by
  have hcomma : Closed alphabet [',', ' '] [.mark ','] :=
    closed_of_ascii (s := ", ") (by decide +kernel)
  induction items with
  | nil => exact closed_nil.reads
  | cons item rest ih =>
    cases rest with
    | nil => simpa [separated] using h item
    | cons other others =>
      have hrest := hcomma.append_reads ih
      simpa [separated, String.intercalate_cons_cons] using
        (h item).append_reads (by decide) hrest

/-- A vector on one line. -/
theorem closed_vector {s : String} {ls : List Lexeme} (h : Reads alphabet s.toList ls) :
    Closed alphabet ("vec![" ++ s ++ "]").toList
      (.word "vec" :: .mark '!' :: .mark '[' :: ls ++ [.mark ']']) := by
  have hopen : Closed alphabet "vec![".toList [.word "vec", .mark '!', .mark '['] :=
    closed_of_ascii (by decide +kernel)
  have hclose : Closed alphabet [']'] [.mark ']'] := closed_of_ascii (s := "]") (by decide +kernel)
  rw [String.toList_append, String.toList_append]
  exact (hopen.append_reads h).append_closed (by decide) hclose

/-- A function that is called on one argument, given the text up to the opening mark. -/
theorem closed_call {front s : String} {ls ls' : List Lexeme} (hfront : Closed alphabet front.toList ls)
    (h : Reads alphabet s.toList ls') :
    Closed alphabet (front ++ s ++ ")").toList (ls ++ ls' ++ [.mark ')']) := by
  have hclose : Closed alphabet [')'] [.mark ')'] := closed_of_ascii (s := ")") (by decide +kernel)
  rw [String.toList_append, String.toList_append]
  exact (hfront.append_reads h).append_closed (by decide) hclose

/-- The mark that ends a line. -/
theorem closed_comma : Closed alphabet [',', '\n'] [.mark ','] :=
  closed_of_ascii (s := ",\n") (by decide +kernel)

mutual

/-- **The text of a piece of code is read as its lexemes.** -/
theorem reads_print : (code : Code) → code.Uses alphabet.IsName → (level : ℕ) →
    Reads alphabet (code.print level).toList code.lexemes
  | .blank, _, _ => by
    have h : Closed alphabet "Schema::default()".toList
        [.word "Schema", .mark ':', .mark ':', .word "default", .mark '(', .mark ')'] :=
      closed_of_ascii (by decide +kernel)
    exact h.reads
  | .reference name, _, _ => by
    have hfront : Closed alphabet "Schema::reference(".toList
        [.word "Schema", .mark ':', .mark ':', .word "reference", .mark '('] :=
      closed_of_ascii (by decide +kernel)
    exact (closed_call hfront (closed_quote name).reads).reads
  | .call builder, h, _ => by
    have harguments : Closed alphabet "(defs)".toList [.mark '(', .word "defs", .mark ')'] :=
      closed_of_ascii (by decide +kernel)
    show Reads alphabet (builder ++ "(defs)").toList _
    rw [String.toList_append]
    exact ((reads_name h).append_closed (by decide) harguments).reads
  | .node fields base, ⟨hfields, hbase⟩, level => by
    have hopen : Closed alphabet "Schema \x7b\n".toList [.word "Schema", .mark '\x7b'] :=
      closed_of_ascii (by decide +kernel)
    have hdots : Closed alphabet "..".toList [.mark '.', .mark '.'] :=
      closed_of_ascii (by decide +kernel)
    have hline : Closed alphabet ['\n'] [] := closed_of_ascii (s := "\n") (by decide +kernel)
    have hclose : Closed alphabet "\x7d".toList [.mark '\x7d'] :=
      closed_of_ascii (by decide +kernel)
    have hend := (hline.append (closed_indent level)).append hclose
    have hbase := (reads_print base hbase level).append_closed (by decide) hend
    have hfront := (hopen.append (closed_printFields fields hfields level)).append
      ((closed_indent (level + 1)).append hdots)
    show Reads alphabet ("Schema \x7b\n" ++ printFields level fields ++ indent (level + 1) ++ ".." ++
      base.print level ++ "\n" ++ indent level ++ "\x7d").toList _
    rw [Code.lexemes]
    simpa using (hfront.append hbase).reads
  | .given value, h, level => by
    have hfront : Closed alphabet "Some(".toList [.word "Some", .mark '('] :=
      closed_of_ascii (by decide +kernel)
    exact (closed_call hfront (reads_print value h level)).reads
  | .boxed value, h, level => by
    have hfront : Closed alphabet "Box::new(".toList
        [.word "Box", .mark ':', .mark ':', .word "new", .mark '('] :=
      closed_of_ascii (by decide +kernel)
    exact (closed_call hfront (reads_print value h (level + 1))).reads
  | .type type, _, _ => by
    have hfront : Closed alphabet "InstanceType::".toList
        [.word "InstanceType", .mark ':', .mark ':'] := closed_of_ascii (by decide +kernel)
    show Reads alphabet ("InstanceType::" ++ typeName type).toList _
    rw [String.toList_append]
    exact hfront.append_reads (reads_typeName type)
  | .text s, _, _ => (closed_ownedText s).reads
  | .count n, _, _ => reads_count n
  | .bound x, _, _ => reads_bound x
  | .truth b, _, _ => reads_truth b
  | .numbers items, _, _ =>
    (closed_vector (reads_separated (fun n : Int64 => reads_int n.toInt) items)).reads
  | .texts items, _, _ =>
    (closed_vector (reads_separated (fun s => (closed_ownedText s).reads) items)).reads
  | .nodes items, h, level => by
    have hopen : Closed alphabet "vec![\n".toList [.word "vec", .mark '!', .mark '['] :=
      closed_of_ascii (by decide +kernel)
    have hclose : Closed alphabet "]".toList [.mark ']'] := closed_of_ascii (by decide +kernel)
    have hitems := hopen.append (closed_printNodes items h level)
    show Reads alphabet ("vec![\n" ++ printNodes level items ++ indent (level + 1) ++ "]").toList _
    rw [Code.lexemes]
    simpa using (hitems.append ((closed_indent (level + 1)).append hclose)).reads
  | .entries items, h, level => by
    have hopen : Closed alphabet "[\n".toList [.mark '['] := closed_of_ascii (by decide +kernel)
    have hclose : Closed alphabet "]\n".toList [.mark ']'] := closed_of_ascii (by decide +kernel)
    have hiter : Closed alphabet ".into_iter()\n".toList
        [.mark '.', .word "into_iter", .mark '(', .mark ')'] := closed_of_ascii (by decide +kernel)
    have hcollect : Closed alphabet ".collect()".toList
        [.mark '.', .word "collect", .mark '(', .mark ')'] := closed_of_ascii (by decide +kernel)
    have hmargin : Closed alphabet (indent (level + 1)).toList [] := closed_indent (level + 1)
    have hitems := hopen.append (closed_printEntries items h level)
    have hmethods := (hmargin.append hiter).append (hmargin.append hcollect)
    show Reads alphabet ("[\n" ++ printEntries level items ++ indent (level + 1) ++ "]\n" ++
      indent (level + 1) ++ ".into_iter()\n" ++ indent (level + 1) ++ ".collect()").toList _
    rw [Code.lexemes]
    simpa using (hitems.append ((hmargin.append hclose).append hmethods)).reads

/-- The fields of a structure, each on a line of its own. -/
theorem closed_printFields : (fields : List (String × Code)) → FieldsUse alphabet.IsName fields →
    (level : ℕ) → Closed alphabet (printFields level fields).toList (lexemesOfFields fields)
  | [], _, _ => closed_nil
  | (name, value) :: rest, ⟨hname, hvalue, hrest⟩, level => by
    have hcolon : Closed alphabet [':', ' '] [.mark ':'] :=
      closed_of_ascii (s := ": ") (by decide +kernel)
    have hend := closed_comma.append (closed_printFields rest hrest level)
    have hvalue := (reads_print value hvalue level).append_closed (by decide) hend
    have hname := (reads_name hname).append_closed (by decide) (hcolon.append hvalue)
    show Closed alphabet (indent (level + 1) ++ name ++ ": " ++ value.print level ++ ",\n" ++
      printFields level rest).toList _
    rw [lexemesOfFields]
    simpa using (closed_indent (level + 1)).append hname

/-- Several pieces, each on a line of its own. -/
theorem closed_printNodes : (items : List Code) → AllUse alphabet.IsName items → (level : ℕ) →
    Closed alphabet (printNodes level items).toList (lexemesOf items)
  | [], _, _ => closed_nil
  | item :: rest, ⟨hitem, hrest⟩, level => by
    have hend := closed_comma.append (closed_printNodes rest hrest level)
    have hitem := (reads_print item hitem (level + 2)).append_closed (by decide) hend
    show Closed alphabet (indent (level + 2) ++ item.print (level + 2) ++ ",\n" ++
      printNodes level rest).toList _
    rw [lexemesOf]
    simpa using (closed_indent (level + 2)).append hitem

/-- Pairs of keys and nodes, each on a line of its own. -/
theorem closed_printEntries : (items : List (String × Code)) → EntriesUse alphabet.IsName items →
    (level : ℕ) → Closed alphabet (printEntries level items).toList (lexemesOfEntries items)
  | [], _, _ => closed_nil
  | (key, item) :: rest, ⟨hitem, hrest⟩, level => by
    have hopen : Closed alphabet "(".toList [.mark '('] := closed_of_ascii (by decide +kernel)
    have hcomma : Closed alphabet ", ".toList [.mark ','] := closed_of_ascii (by decide +kernel)
    have hclose : Closed alphabet [')'] [.mark ')'] := closed_of_ascii (s := ")") (by decide +kernel)
    have hend := hclose.append (closed_comma.append (closed_printEntries rest hrest level))
    have hitem := (reads_print item hitem (level + 2)).append_closed (by decide) hend
    have hkey := (hopen.append (closed_ownedText key)).append (hcomma.append hitem)
    show Closed alphabet (indent (level + 2) ++ "(" ++ ownedText key ++ ", " ++
      item.print (level + 2) ++ "),\n" ++ printEntries level rest).toList _
    rw [lexemesOfEntries]
    simpa using (closed_indent (level + 2)).append hkey

end

end MessageSchema.Builder
