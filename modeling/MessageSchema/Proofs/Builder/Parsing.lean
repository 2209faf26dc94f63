import MessageSchema.Proofs.Builder.Expression
import MessageSchema.Proofs.Program.Reader

/-!
# The lexemes of emitted code

Emitted code is first turned into lexemes, without margins and comments, and these are read back as the
expression that the code stands for.

## Main definitions

* `Builder.Code.lexemes`: the lexemes of a piece of code.
* `Builder.Parses`: some lexemes are read as an expression.

## Main results

* `Builder.parses_lexemes`: the lexemes of a piece of code are read as its expression.
-/

namespace MessageSchema.Builder

open Program

/-! ### Names in code -/

mutual

/-- Every name that the code uses, of a builder or a field, is allowed. -/
def Code.Uses (allowed : String → Prop) : Code → Prop
  | .call builder => allowed builder
  | .node fields base => FieldsUse allowed fields ∧ base.Uses allowed
  | .given value | .boxed value => value.Uses allowed
  | .nodes items => AllUse allowed items
  | .entries items => EntriesUse allowed items
  | _ => True

/-- The names in several pieces are allowed. -/
def AllUse (allowed : String → Prop) : List Code → Prop
  | [] => True
  | item :: rest => item.Uses allowed ∧ AllUse allowed rest

/-- The names of fields, and the names in them, are allowed. -/
def FieldsUse (allowed : String → Prop) : List (String × Code) → Prop
  | [] => True
  | (name, value) :: rest => allowed name ∧ value.Uses allowed ∧ FieldsUse allowed rest

/-- The names in the nodes under several keys are allowed. -/
def EntriesUse (allowed : String → Prop) : List (String × Code) → Prop
  | [] => True
  | (_, item) :: rest => item.Uses allowed ∧ EntriesUse allowed rest

end

/-! ### Lexemes -/

/-- The lexemes of a text that is owned. -/
def lexemesOfText (s : String) : List Lexeme :=
  [.text s, .mark '.', .word "to_string", .mark '(', .mark ')']

/-- The lexemes of a whole number. -/
def lexemesOfInt (n : ℤ) : List Lexeme :=
  if n < 0 then [.mark '-', .whole n.natAbs] else [.whole n.natAbs]

/-- The lexemes of a bound. -/
def lexemesOfBound (x : Binary64) : List Lexeme :=
  if x.negative then [.mark '-', .real x.neg] else [.real x]

/-- Items with commas between them. -/
def separated : List (List Lexeme) → List Lexeme
  | [] => []
  | [item] => item
  | item :: rest => item ++ .mark ',' :: separated rest

mutual

/-- The lexemes of a piece of code. -/
def Code.lexemes : Code → List Lexeme
  | .blank =>
    [.word "Schema", .mark ':', .mark ':', .word "default", .mark '(', .mark ')']
  | .reference name =>
    [.word "Schema", .mark ':', .mark ':', .word "reference", .mark '(', .text name, .mark ')']
  | .call builder => [.word builder, .mark '(', .word "defs", .mark ')']
  | .node fields base =>
    .word "Schema" :: .mark '\x7b' :: lexemesOfFields fields ++
      .mark '.' :: .mark '.' :: base.lexemes ++ [.mark '\x7d']
  | .given value => .word "Some" :: .mark '(' :: value.lexemes ++ [.mark ')']
  | .boxed value =>
    .word "Box" :: .mark ':' :: .mark ':' :: .word "new" :: .mark '(' :: value.lexemes ++
      [.mark ')']
  | .type type => [.word "InstanceType", .mark ':', .mark ':', .word (typeName type)]
  | .text s => lexemesOfText s
  | .count n => [.whole n.toNat]
  | .bound x => lexemesOfBound x
  | .truth b => [.word (if b then "true" else "false")]
  | .numbers items =>
    .word "vec" :: .mark '!' :: .mark '[' :: separated (items.map fun n => lexemesOfInt n.toInt) ++
      [.mark ']']
  | .texts items =>
    .word "vec" :: .mark '!' :: .mark '[' :: separated (items.map lexemesOfText) ++ [.mark ']']
  | .nodes items => .word "vec" :: .mark '!' :: .mark '[' :: lexemesOf items ++ [.mark ']']
  | .entries items =>
    .mark '[' :: lexemesOfEntries items ++
      [.mark ']', .mark '.', .word "into_iter", .mark '(', .mark ')', .mark '.', .word "collect",
        .mark '(', .mark ')']

/-- The lexemes of several pieces, each with a comma behind it. -/
def lexemesOf : List Code → List Lexeme
  | [] => []
  | item :: rest => item.lexemes ++ .mark ',' :: lexemesOf rest

/-- The lexemes of the fields of a structure. -/
def lexemesOfFields : List (String × Code) → List Lexeme
  | [] => []
  | (name, value) :: rest =>
    .word name :: .mark ':' :: value.lexemes ++ .mark ',' :: lexemesOfFields rest

/-- The lexemes of the pairs of keys and nodes. -/
def lexemesOfEntries : List (String × Code) → List Lexeme
  | [] => []
  | (key, item) :: rest =>
    .mark '(' :: lexemesOfText key ++ .mark ',' :: item.lexemes ++ .mark ')' :: .mark ',' ::
      lexemesOfEntries rest

end

attribute [simp] Code.lexemes

/-! ### Reading them back -/

/-- What follows an expression: a mark that ends it. -/
def Ends (rest : List Lexeme) : Prop :=
  ∃ c tail, rest = .mark c :: tail ∧ c ∈ [',', ')', ']', '\x7d', ';']

/-- Some lexemes are read as an expression, whatever ends it, with twice as much fuel as there are
lexemes. -/
structure Parses (lexemes : List Lexeme) (e : Expression) : Prop where
  begins : ∃ first rest, lexemes = first :: rest ∧ first ≠ .mark ')' ∧ first ≠ .mark ']'
  reads : ∀ fuel rest, Ends rest → 2 * lexemes.length ≤ fuel →
    readExpression fuel (lexemes ++ rest) = some (e, rest)

theorem readMethods_of_ends {rest : List Lexeme} (h : Ends rest) (fuel : ℕ) (e : Expression) :
    readMethods (fuel + 1) e rest = some (e, rest) := by
  obtain ⟨c, tail, rfl, hc⟩ := h
  have hc : c ≠ '.' := by
    rintro rfl
    simp at hc
  rw [readMethods]
  rintro name rest' h
  simp [hc] at h

theorem readItems_close (fuel : ℕ) (close : Char) (rest : List Lexeme) :
    readItems (fuel + 1) close (.mark close :: rest) = some ([], rest) := by
  simp [readItems]

/-- The last of several items. -/
theorem Parses.readItems_last {lexemes : List Lexeme} {e : Expression} (h : Parses lexemes e)
    {close : Char} (hclose : close = ')' ∨ close = ']') {fuel : ℕ}
    (hfuel : 2 * lexemes.length ≤ fuel) (rest : List Lexeme) :
    readItems (fuel + 1) close (lexemes ++ .mark close :: rest) = some ([e], rest) := by
  obtain ⟨first, tail, rfl, hround, hsquare⟩ := h.begins
  have hfirst : first ≠ .mark close := by rcases hclose with rfl | rfl <;> assumption
  have hcomma : close ≠ ',' := by rcases hclose with rfl | rfl <;> decide
  have hread := h.reads fuel (.mark close :: rest)
    ⟨close, rest, rfl, by rcases hclose with rfl | rfl <;> simp⟩ hfuel
  rw [List.cons_append] at hread ⊢
  simp [readItems, hfirst, hread, hcomma]

/-- One of several items, with a comma behind it. -/
theorem Parses.readItems_cons {lexemes : List Lexeme} {e : Expression} (h : Parses lexemes e)
    {close : Char} (hclose : close = ')' ∨ close = ']') {fuel : ℕ}
    (hfuel : 2 * lexemes.length ≤ fuel) {rest others : List Lexeme} {items : List Expression}
    (hitems : readItems fuel close others = some (items, rest)) :
    readItems (fuel + 1) close (lexemes ++ .mark ',' :: others) = some (e :: items, rest) := by
  obtain ⟨first, tail, rfl, hround, hsquare⟩ := h.begins
  have hfirst : first ≠ .mark close := by rcases hclose with rfl | rfl <;> assumption
  have hread := h.reads fuel (.mark ',' :: others) ⟨',', others, rfl, by simp⟩ hfuel
  rw [List.cons_append] at hread ⊢
  simp [readItems, hfirst, hread, hitems]

theorem parses_text (s : String) : Parses (lexemesOfText s) (expressionOfText s) where
  begins := ⟨_, _, rfl, nofun, nofun⟩
  reads fuel rest hends hfuel := by
    obtain ⟨fuel, rfl⟩ : ∃ k, fuel = k + 3 := ⟨fuel - 3, by simp [lexemesOfText] at hfuel; omega⟩
    simp [lexemesOfText, readExpression, readMethods, readItems, readMethods_of_ends hends,
      expressionOfText]

/-- A literal of one lexeme. -/
theorem parses_literal {lexeme : Lexeme} {e : Expression} (hparen : lexeme ≠ .mark ')')
    (hbracket : lexeme ≠ .mark ']')
    (hread : ∀ fuel rest, readExpression (fuel + 1) (lexeme :: rest) = readMethods fuel e rest) :
    Parses [lexeme] e where
  begins := ⟨_, _, rfl, hparen, hbracket⟩
  reads fuel rest hends hfuel := by
    obtain ⟨fuel, rfl⟩ : ∃ k, fuel = k + 2 := ⟨fuel - 2, by simp at hfuel; omega⟩
    rw [List.singleton_append, hread, readMethods_of_ends hends]

theorem parses_whole (n : ℕ) : Parses [.whole n] (.whole n) :=
  parses_literal nofun nofun fun _ _ => by rw [readExpression]

theorem parses_real (x : Binary64) : Parses [.real x] (.real x) :=
  parses_literal nofun nofun fun _ _ => by rw [readExpression]

theorem Parses.negated {lexemes : List Lexeme} {e : Expression} (h : Parses lexemes e) :
    Parses (.mark '-' :: lexemes) (.negated e) where
  begins := ⟨_, _, rfl, nofun, nofun⟩
  reads fuel rest hends hfuel := by
    obtain ⟨fuel, rfl⟩ : ∃ k, fuel = k + 2 := ⟨fuel - 2, by simp at hfuel; omega⟩
    have hread := h.reads (fuel + 1) rest hends (by simp at hfuel; omega)
    simp [readExpression, hread]

theorem parses_int (n : ℤ) : Parses (lexemesOfInt n) (expressionOfInt n) := by
  unfold lexemesOfInt expressionOfInt
  split
  · exact (parses_whole _).negated
  · exact parses_whole _

theorem parses_bound (x : Binary64) : Parses (lexemesOfBound x) (expressionOfBound x) := by
  unfold lexemesOfBound expressionOfBound
  split
  · exact (parses_real _).negated
  · exact parses_real _

/-- Items with commas between them. -/
theorem readItems_separated {α : Type} {lexemes : α → List Lexeme} {e : α → Expression}
    (h : ∀ a, Parses (lexemes a) (e a)) (items : List α) (rest : List Lexeme) {fuel : ℕ}
    (hfuel : 2 * (separated (items.map lexemes)).length + 1 ≤ fuel) :
    readItems fuel ']' (separated (items.map lexemes) ++ .mark ']' :: rest) =
      some (items.map e, rest) := by
  induction items generalizing fuel with
  | nil =>
    obtain ⟨fuel, rfl⟩ : ∃ k, fuel = k + 1 := ⟨fuel - 1, by omega⟩
    exact readItems_close fuel ']' rest
  | cons item others ih =>
    obtain ⟨fuel, rfl⟩ : ∃ k, fuel = k + 1 := ⟨fuel - 1, by omega⟩
    cases others with
    | nil =>
      refine (h item).readItems_last (.inr rfl) ?_ rest
      simp [separated] at hfuel
      omega
    | cons other others =>
      have hlength : (separated ((item :: other :: others).map lexemes)).length =
          (lexemes item).length + (separated ((other :: others).map lexemes)).length + 1 := by
        simp [separated, Nat.add_assoc]
      have hothers : readItems fuel ']' (separated ((other :: others).map lexemes) ++
          .mark ']' :: rest) = some ((other :: others).map e, rest) := ih (by omega)
      simpa [separated] using (h item).readItems_cons (.inr rfl) (by omega) hothers

/-- A function that is called. -/
theorem parses_call (s : String) (tail : List Lexeme) {arguments : List Lexeme}
    {names : List String} {items : List Expression} (htrue : s ≠ "true") (hfalse : s ≠ "false")
    (hnames : ∀ rest, readPath (.word s :: tail ++ .mark '(' :: rest) =
      some (names, .mark '(' :: rest))
    (hitems : ∀ fuel rest, 2 * arguments.length + 1 ≤ fuel →
      readItems fuel ')' (arguments ++ .mark ')' :: rest) = some (items, rest)) :
    Parses (.word s :: tail ++ .mark '(' :: arguments ++ [.mark ')']) (.call names items) where
  begins := ⟨_, _, rfl, nofun, nofun⟩
  reads fuel rest hends hfuel := by
    obtain ⟨fuel, rfl⟩ : ∃ k, fuel = k + 2 := ⟨fuel - 2, by simp at hfuel; omega⟩
    have harguments := hitems (fuel + 1) rest (by simp at hfuel; omega)
    have hread := hnames (arguments ++ .mark ')' :: rest)
    simp only [List.cons_append, List.append_assoc, List.nil_append] at hread ⊢
    rw [readExpression, if_neg htrue, if_neg hfalse, hread]
    simp [harguments, readMethods_of_ends hends]

/-- A function that is called on nothing. -/
theorem readItems_none (fuel : ℕ) (rest : List Lexeme) (hfuel : 2 * ([] : List Lexeme).length + 1 ≤ fuel) :
    readItems fuel ')' ([] ++ .mark ')' :: rest) = some ([], rest) := by
  obtain ⟨fuel, rfl⟩ : ∃ k, fuel = k + 1 := ⟨fuel - 1, by simp at hfuel; omega⟩
  exact readItems_close fuel ')' rest

/-- A function that is called on one argument. -/
theorem Parses.readItems_one {lexemes : List Lexeme} {e : Expression} (h : Parses lexemes e)
    (fuel : ℕ) (rest : List Lexeme) (hfuel : 2 * lexemes.length + 1 ≤ fuel) :
    readItems fuel ')' (lexemes ++ .mark ')' :: rest) = some ([e], rest) := by
  obtain ⟨fuel, rfl⟩ : ∃ k, fuel = k + 1 := ⟨fuel - 1, by omega⟩
  exact h.readItems_last (.inl rfl) (by omega) rest

/-- A vector. -/
theorem parses_vector {lexemes : List Lexeme} {items : List Expression}
    (hitems : ∀ fuel rest, 2 * lexemes.length + 1 ≤ fuel →
      readItems fuel ']' (lexemes ++ .mark ']' :: rest) = some (items, rest)) :
    Parses (.word "vec" :: .mark '!' :: .mark '[' :: lexemes ++ [.mark ']']) (.vector items) where
  begins := ⟨_, _, rfl, nofun, nofun⟩
  reads fuel rest hends hfuel := by
    obtain ⟨fuel, rfl⟩ : ∃ k, fuel = k + 2 := ⟨fuel - 2, by simp at hfuel; omega⟩
    have hread := hitems (fuel + 1) rest (by simp at hfuel; omega)
    simp [readExpression, readPath, hread, readMethods_of_ends hends]

/-- A path that is not called. -/
theorem parses_path (s : String) (tail : List Lexeme) {names : List String} (htrue : s ≠ "true")
    (hfalse : s ≠ "false") (hnames : ∀ rest, Ends rest →
      readPath (.word s :: tail ++ rest) = some (names, rest)) :
    Parses (.word s :: tail) (.path names) where
  begins := ⟨_, _, rfl, nofun, nofun⟩
  reads fuel rest hends hfuel := by
    obtain ⟨fuel, rfl⟩ : ∃ k, fuel = k + 2 := ⟨fuel - 2, by simp at hfuel; omega⟩
    have hread := hnames rest hends
    have hmethods := readMethods_of_ends hends fuel (.path names)
    rw [List.cons_append] at hread ⊢
    rw [readExpression, if_neg htrue, if_neg hfalse, hread]
    obtain ⟨c, others, rfl, hc⟩ := hends
    rcases (by simpa using hc : c = ',' ∨ c = ')' ∨ c = ']' ∨ c = '\x7d' ∨ c = ';') with
      rfl | rfl | rfl | rfl | rfl <;> simp

theorem parses_truth (b : Bool) : Parses [.word (if b then "true" else "false")] (.truth b) where
  begins := ⟨_, _, rfl, nofun, nofun⟩
  reads fuel rest hends hfuel := by
    obtain ⟨fuel, rfl⟩ : ∃ k, fuel = k + 2 := ⟨fuel - 2, by simp at hfuel; omega⟩
    cases b <;> simp [readExpression, readMethods_of_ends hends]

/-- A pair. -/
theorem Parses.pair {first second : List Lexeme} {e e' : Expression} (h : Parses first e)
    (h' : Parses second e') :
    Parses (.mark '(' :: first ++ .mark ',' :: second ++ [.mark ')']) (.pair e e') where
  begins := ⟨_, _, rfl, nofun, nofun⟩
  reads fuel rest hends hfuel := by
    obtain ⟨fuel, rfl⟩ : ∃ k, fuel = k + 2 := ⟨fuel - 2, by simp at hfuel; omega⟩
    have hfirst := h.reads (fuel + 1) (.mark ',' :: (second ++ .mark ')' :: rest))
      ⟨',', _, rfl, by simp⟩ (by simp at hfuel; omega)
    have hsecond := h'.reads (fuel + 1) (.mark ')' :: rest) ⟨')', _, rfl, by simp⟩
      (by simp at hfuel; omega)
    simp [readExpression, hfirst, hsecond, readMethods_of_ends hends]

/-- Entries that are collected. -/
theorem parses_collected {lexemes : List Lexeme} {items : List Expression}
    (hitems : ∀ fuel rest, 2 * lexemes.length + 1 ≤ fuel →
      readItems fuel ']' (lexemes ++ .mark ']' :: rest) = some (items, rest)) :
    Parses (.mark '[' :: lexemes ++
        [.mark ']', .mark '.', .word "into_iter", .mark '(', .mark ')', .mark '.',
          .word "collect", .mark '(', .mark ')'])
      (.method (.method (.array items) "into_iter" []) "collect" []) where
  begins := ⟨_, _, rfl, nofun, nofun⟩
  reads fuel rest hends hfuel := by
    obtain ⟨fuel, rfl⟩ : ∃ k, fuel = k + 4 := ⟨fuel - 4, by simp at hfuel; omega⟩
    have hread := hitems (fuel + 3) ([.mark '.', .word "into_iter", .mark '(', .mark ')', .mark '.',
      .word "collect", .mark '(', .mark ')'] ++ rest) (by simp at hfuel; omega)
    simp at hread
    simp [readExpression, hread, readMethods, readItems_close, readMethods_of_ends hends]

/-- A structure. -/
theorem parses_record {fields base : List Lexeme} {type : String}
    {values : List (String × Expression)} {e : Expression} (htrue : type ≠ "true")
    (hfalse : type ≠ "false")
    (hfields : ∀ fuel rest, 2 * (fields.length + base.length) + 3 ≤ fuel →
      readFields fuel (fields ++ .mark '.' :: .mark '.' :: (base ++ .mark '\x7d' :: rest)) =
        some (values, e, rest)) :
    Parses (.word type :: .mark '\x7b' :: fields ++ .mark '.' :: .mark '.' :: base ++
      [.mark '\x7d']) (.record type values e) where
  begins := ⟨_, _, rfl, nofun, nofun⟩
  reads fuel rest hends hfuel := by
    obtain ⟨fuel, rfl⟩ : ∃ k, fuel = k + 2 := ⟨fuel - 2, by simp at hfuel; omega⟩
    have hread := hfields (fuel + 1) rest (by simp at hfuel; omega)
    simp [readExpression, htrue, hfalse, readPath, hread, readMethods_of_ends hends]

/-- The fields of a structure have been read when its base follows. -/
theorem Parses.readFields_base {base : List Lexeme} {e : Expression} (h : Parses base e) {fuel : ℕ}
    (hfuel : 2 * base.length + 1 ≤ fuel) (rest : List Lexeme) :
    readFields fuel (.mark '.' :: .mark '.' :: (base ++ .mark '\x7d' :: rest)) =
      some ([], e, rest) := by
  obtain ⟨fuel, rfl⟩ : ∃ k, fuel = k + 1 := ⟨fuel - 1, by omega⟩
  have hread := h.reads fuel (.mark '\x7d' :: rest) ⟨'\x7d', rest, rfl, by simp⟩ (by omega)
  simp [readFields, hread]

/-- One of the fields of a structure. -/
theorem Parses.readFields_cons {lexemes : List Lexeme} {e : Expression} (h : Parses lexemes e)
    {fuel : ℕ} (hfuel : 2 * lexemes.length ≤ fuel) (name : String) {others rest : List Lexeme}
    {fields : List (String × Expression)} {base : Expression}
    (hothers : readFields fuel others = some (fields, base, rest)) :
    readFields (fuel + 1) (.word name :: .mark ':' :: (lexemes ++ .mark ',' :: others)) =
      some ((name, e) :: fields, base, rest) := by
  have hread := h.reads fuel (.mark ',' :: others) ⟨',', others, rfl, by simp⟩ hfuel
  simp [readFields, hread, hothers]

/-- A name that the language does not use for a literal. -/
def NoLiteral (name : String) : Prop :=
  name ≠ "true" ∧ name ≠ "false"

theorem parses_variable {name : String} (h : NoLiteral name) :
    Parses [.word name] (.path [name]) := by
  refine parses_path name [] h.1 h.2 fun rest hends => ?_
  obtain ⟨c, others, rfl, hc⟩ := hends
  have hcolon : c ≠ ':' := by
    rintro rfl
    simp at hc
  simp [readPath, hcolon]

theorem parses_type (type : PrimitiveType) :
    Parses [.word "InstanceType", .mark ':', .mark ':', .word (typeName type)]
      (.path ["InstanceType", typeName type]) := by
  refine parses_path "InstanceType" [.mark ':', .mark ':', .word (typeName type)] (by decide)
    (by decide) fun rest hends => ?_
  obtain ⟨c, others, rfl, hc⟩ := hends
  have hcolon : c ≠ ':' := by
    rintro rfl
    simp at hc
  simp [readPath, hcolon]

/-- A text on which a function is called. -/
theorem parses_slice (s : String) : Parses [.text s] (.text s) :=
  parses_literal nofun nofun fun _ _ => by rw [readExpression]

theorem parses_blank : Parses Code.blank.lexemes Code.blank.expression :=
  parses_call "Schema" [.mark ':', .mark ':', .word "default"] (by decide) (by decide)
    (fun rest => by simp [readPath]) readItems_none

theorem parses_reference (name : String) :
    Parses (Code.reference name).lexemes (Code.reference name).expression :=
  parses_call "Schema" [.mark ':', .mark ':', .word "reference"] (by decide) (by decide)
    (fun rest => by simp [readPath]) (parses_slice name).readItems_one

theorem parses_builder {builder : String} (h : NoLiteral builder) :
    Parses (Code.call builder).lexemes (Code.call builder).expression := by
  have hdefs : Parses [.word "defs"] (.path ["defs"]) := parses_variable ⟨by decide, by decide⟩
  exact parses_call builder [] h.1 h.2 (fun rest => by simp [readPath]) hdefs.readItems_one

theorem Parses.given {value : Code} (h : Parses value.lexemes value.expression) :
    Parses (Code.given value).lexemes (Code.given value).expression :=
  parses_call "Some" [] (by decide) (by decide) (fun rest => by simp [readPath]) h.readItems_one

theorem Parses.boxed {value : Code} (h : Parses value.lexemes value.expression) :
    Parses (Code.boxed value).lexemes (Code.boxed value).expression :=
  parses_call "Box" [.mark ':', .mark ':', .word "new"] (by decide) (by decide)
    (fun rest => by simp [readPath]) h.readItems_one

theorem parses_numbers (items : List Int64) :
    Parses (Code.numbers items).lexemes (Code.numbers items).expression := by
  have hitem : ∀ n : Int64, Parses (lexemesOfInt n.toInt) (expressionOfInt n.toInt) := fun n =>
    parses_int n.toInt
  exact parses_vector fun fuel rest hfuel => readItems_separated hitem items rest hfuel

theorem parses_texts (items : List String) :
    Parses (Code.texts items).lexemes (Code.texts items).expression :=
  parses_vector fun _ rest hfuel => readItems_separated parses_text items rest hfuel

mutual

/-- **The lexemes of a piece of code are read as its expression.** -/
theorem parses_lexemes : (code : Code) → code.Uses NoLiteral → Parses code.lexemes code.expression
  | .blank, _ => parses_blank
  | .reference name, _ => parses_reference name
  | .call _, h => parses_builder h
  | .node fields base, h => by
    obtain ⟨hfields, hbase⟩ := h
    refine parses_record (by decide) (by decide) fun fuel rest hfuel => ?_
    exact readFields_lexemesOfFields fields hfields (parses_lexemes base hbase) fuel rest hfuel
  | .given value, h => (parses_lexemes value h).given
  | .boxed value, h => (parses_lexemes value h).boxed
  | .type type, _ => parses_type type
  | .text s, _ => parses_text s
  | .count n, _ => parses_whole n.toNat
  | .bound x, _ => parses_bound x
  | .truth b, _ => parses_truth b
  | .numbers items, _ => parses_numbers items
  | .texts items, _ => parses_texts items
  | .nodes items, h => parses_vector (readItems_lexemesOf items h)
  | .entries items, h => parses_collected (readItems_lexemesOfEntries items h)

/-- Several pieces, each with a comma behind it. -/
theorem readItems_lexemesOf : (items : List Code) → AllUse NoLiteral items → (fuel : ℕ) →
    (rest : List Lexeme) → 2 * (lexemesOf items).length + 1 ≤ fuel →
      readItems fuel ']' (lexemesOf items ++ .mark ']' :: rest) = some (expressionsOf items, rest)
  | [], _, fuel, rest, hfuel => by
    obtain ⟨fuel, rfl⟩ : ∃ k, fuel = k + 1 := ⟨fuel - 1, by omega⟩
    exact readItems_close fuel ']' rest
  | item :: others, ⟨hitem, hothers⟩, fuel, rest, hfuel => by
    obtain ⟨fuel, rfl⟩ : ∃ k, fuel = k + 1 := ⟨fuel - 1, by omega⟩
    simp only [lexemesOf, List.length_append, List.length_cons] at hfuel
    have hread := readItems_lexemesOf others hothers fuel rest (by omega)
    have hfirst := (parses_lexemes item hitem).readItems_cons (.inr rfl) (by omega) hread
    simpa [lexemesOf, expressionsOf] using hfirst

/-- The fields of a structure, with its base. -/
theorem readFields_lexemesOfFields : (fields : List (String × Code)) → FieldsUse NoLiteral fields →
    {base : List Lexeme} → {e : Expression} → Parses base e → (fuel : ℕ) → (rest : List Lexeme) →
      2 * ((lexemesOfFields fields).length + base.length) + 3 ≤ fuel →
      readFields fuel (lexemesOfFields fields ++
          .mark '.' :: .mark '.' :: (base ++ .mark '\x7d' :: rest)) =
        some (expressionOfFields fields, e, rest)
  | [], _, base, e, hbase, fuel, rest, hfuel =>
    hbase.readFields_base (by simp [lexemesOfFields] at hfuel; omega) rest
  | (name, value) :: others, ⟨_, hvalue, hothers⟩, base, e, hbase, fuel, rest, hfuel => by
    obtain ⟨fuel, rfl⟩ : ∃ k, fuel = k + 1 := ⟨fuel - 1, by omega⟩
    simp only [lexemesOfFields, List.length_append, List.length_cons] at hfuel
    have hread := readFields_lexemesOfFields others hothers hbase fuel rest (by omega)
    have hfirst := (parses_lexemes value hvalue).readFields_cons (by omega) name hread
    simpa [lexemesOfFields, expressionOfFields] using hfirst

/-- The pairs of keys and nodes, each with a comma behind it. -/
theorem readItems_lexemesOfEntries : (items : List (String × Code)) → EntriesUse NoLiteral items →
    (fuel : ℕ) → (rest : List Lexeme) → 2 * (lexemesOfEntries items).length + 1 ≤ fuel →
      readItems fuel ']' (lexemesOfEntries items ++ .mark ']' :: rest) =
        some (expressionsOfEntries items, rest)
  | [], _, fuel, rest, hfuel => by
    obtain ⟨fuel, rfl⟩ : ∃ k, fuel = k + 1 := ⟨fuel - 1, by omega⟩
    exact readItems_close fuel ']' rest
  | (key, item) :: others, ⟨hitem, hothers⟩, fuel, rest, hfuel => by
    obtain ⟨fuel, rfl⟩ : ∃ k, fuel = k + 1 := ⟨fuel - 1, by omega⟩
    simp only [lexemesOfEntries, List.length_append, List.length_cons] at hfuel
    have hread := readItems_lexemesOfEntries others hothers fuel rest (by omega)
    have hpair := (parses_text key).pair (parses_lexemes item hitem)
    have hfirst := hpair.readItems_cons (.inr rfl) (by simp; omega) hread
    simpa [lexemesOfEntries, expressionsOfEntries] using hfirst

end

end MessageSchema.Builder
