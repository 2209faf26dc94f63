import MessageSchema.Proofs.Builder.Naming
import MessageSchema.Proofs.Builder.Printing

/-!
# Emitted functions are read back

The text of a function has the lexemes of its statements in turn, and from these lexemes the function
is read back. The two functions of a message have six kinds of statements between them: variables, calls
of builders, methods of the registry, one early return, and the value that is returned at the end.

## Main definitions

* `Builder.Statement.lexemes`, `Builder.Function.lexemes`: the lexemes of a function.

## Main results

* `Builder.closed_printFunction`: the text of a function is read as its lexemes.
* `Builder.readFunctions_lexemes`: the functions of a unit are read back.
-/

namespace MessageSchema.Builder

open Program

variable {alphabet : Alphabet}

/-! ### The lexemes of a function -/

/-- The lexemes of a statement. -/
def Statement.lexemes : Statement → List Lexeme
  | .newRegistry =>
    [.word "let", .word "mut", .word "defs", .mark '=', .word "Definitions", .mark ':', .mark ':',
      .word "new", .mark '(', .mark ')', .mark ';']
  | .callOnly builder =>
    [.word "let", .word "_", .mark '=', .word builder, .mark '(', .mark '&', .word "mut",
      .word "defs", .mark ')', .mark ';']
  | .returnRoot name =>
    [.word "Schema", .mark ':', .mark ':', .word "root_reference", .mark '(', .text name, .mark ',',
      .word "defs", .mark ')']
  | .returnIfRegistered name =>
    [.word "if", .word "defs", .mark '.', .word "contains_key", .mark '(', .text name, .mark ')',
      .mark '\x7b', .word "return", .word "Schema", .mark ':', .mark ':', .word "reference",
      .mark '(', .text name, .mark ')', .mark ';', .mark '\x7d']
  | .registerBlank name =>
    [.word "defs", .mark '.', .word "insert", .mark '('] ++ lexemesOfText name ++
      [.mark ',', .word "Schema", .mark ':', .mark ':', .word "default", .mark '(', .mark ')',
        .mark ')', .mark ';']
  | .build value => [.word "let", .word "schema", .mark '='] ++ value.lexemes ++ [.mark ';']
  | .registerBuilt name =>
    [.word "defs", .mark '.', .word "insert", .mark '('] ++ lexemesOfText name ++
      [.mark ',', .word "schema", .mark ')', .mark ';']
  | .returnReference name =>
    [.word "Schema", .mark ':', .mark ':', .word "reference", .mark '(', .text name, .mark ')']

attribute [simp] Statement.lexemes

/-- The lexemes of the parameters of a function. -/
def lexemesOfParameters (isGivenRegistry : Bool) : List Lexeme :=
  if isGivenRegistry then
    [.mark '(', .word "defs", .mark ':', .mark '&', .word "mut", .word "Definitions", .mark ')']
  else [.mark '(', .mark ')']

/-- The lexemes of a function. -/
def Function.lexemes (function : Function) : List Lexeme :=
  [.word "pub", .word "fn", .word function.name] ++ lexemesOfParameters function.isGivenRegistry ++
    [.mark '-', .mark '>', .word "Schema", .mark '\x7b'] ++
    function.body.flatMap Statement.lexemes ++ [.mark '\x7d']

/-- Every name that a statement uses, of a builder or a field, is allowed. -/
def Statement.Uses (allowed : String → Prop) : Statement → Prop
  | .callOnly builder => allowed builder
  | .build value => value.Uses allowed
  | _ => True

/-- A text between constant texts. -/
theorem closed_between {front s back : String} {ls ls' ls'' : List Lexeme}
    (hfront : Closed alphabet front.toList ls) (h : Closed alphabet s.toList ls')
    (hback : Closed alphabet back.toList ls'') :
    Closed alphabet (front ++ s ++ back).toList (ls ++ ls' ++ ls'') := by
  rw [String.toList_append, String.toList_append]
  exact (hfront.append h).append hback

/-- A name or a number, or an expression that ends with one, and a text that ends it. -/
theorem closed_ended {cs : List Char} {back : String} {ls ls' : List Lexeme}
    (h : Reads alphabet cs ls) (hdelimiter : back.toList.head?.any isDelimiter = true)
    (hback : Closed alphabet back.toList ls') : Closed alphabet (cs ++ back.toList) (ls ++ ls') := by
  cases htext : back.toList with
  | nil => simp [htext] at hdelimiter
  | cons d rest =>
    rw [htext] at hback hdelimiter
    exact h.append_closed (by simpa using hdelimiter) hback

theorem closed_printStatement :
    (statement : Statement) → statement.Uses alphabet.IsName →
      Closed alphabet statement.print.toList statement.lexemes
  | .newRegistry, _ => closed_of_ascii (by decide +kernel)
  | .callOnly builder, h => by
    have hfront : Closed alphabet "    let _ = ".toList [.word "let", .word "_", .mark '='] :=
      closed_of_ascii (by decide +kernel)
    have hback : Closed alphabet "(&mut defs);\n".toList
        [.mark '(', .mark '&', .word "mut", .word "defs", .mark ')', .mark ';'] :=
      closed_of_ascii (by decide +kernel)
    have hname := closed_ended (reads_name h) (by decide) hback
    show Closed alphabet ("    let _ = " ++ builder ++ "(&mut defs);\n").toList _
    rw [String.toList_append, String.toList_append, List.append_assoc]
    exact hfront.append hname
  | .returnRoot name, _ => by
    have hfront : Closed alphabet "    Schema::root_reference(".toList
        [.word "Schema", .mark ':', .mark ':', .word "root_reference", .mark '('] :=
      closed_of_ascii (by decide +kernel)
    have hback : Closed alphabet ", defs)\n".toList [.mark ',', .word "defs", .mark ')'] :=
      closed_of_ascii (by decide +kernel)
    exact closed_between hfront (closed_quote name) hback
  | .returnIfRegistered name, _ => by
    have hfront : Closed alphabet "    if defs.contains_key(".toList
        [.word "if", .word "defs", .mark '.', .word "contains_key", .mark '('] :=
      closed_of_ascii (by decide +kernel)
    have hmiddle : Closed alphabet ") \x7b\n        return Schema::reference(".toList
        [.mark ')', .mark '\x7b', .word "return", .word "Schema", .mark ':', .mark ':',
          .word "reference", .mark '('] := closed_of_ascii (by decide +kernel)
    have hback : Closed alphabet ");\n    \x7d\n".toList [.mark ')', .mark ';', .mark '\x7d'] :=
      closed_of_ascii (by decide +kernel)
    exact closed_between (closed_between hfront (closed_quote name) hmiddle) (closed_quote name) hback
  | .registerBlank name, _ => by
    have hfront : Closed alphabet
        "    // Register first so self-references resolve to a $ref.\n    defs.insert(".toList
        [.word "defs", .mark '.', .word "insert", .mark '('] := closed_of_ascii (by decide +kernel)
    have hback : Closed alphabet ", Schema::default());\n\n".toList
        [.mark ',', .word "Schema", .mark ':', .mark ':', .word "default", .mark '(', .mark ')',
          .mark ')', .mark ';'] := closed_of_ascii (by decide +kernel)
    exact closed_between hfront (closed_ownedText name) hback
  | .build value, h => by
    have hfront : Closed alphabet "    let schema = ".toList
        [.word "let", .word "schema", .mark '='] := closed_of_ascii (by decide +kernel)
    have hback : Closed alphabet ";\n".toList [.mark ';'] := closed_of_ascii (by decide +kernel)
    have hvalue := closed_ended (reads_print value h 1) (by decide) hback
    show Closed alphabet ("    let schema = " ++ value.print 1 ++ ";\n").toList _
    rw [String.toList_append, String.toList_append, List.append_assoc, Statement.lexemes,
      List.append_assoc]
    exact hfront.append hvalue
  | .registerBuilt name, _ => by
    have hfront : Closed alphabet "    defs.insert(".toList
        [.word "defs", .mark '.', .word "insert", .mark '('] := closed_of_ascii (by decide +kernel)
    have hback : Closed alphabet ", schema);\n".toList
        [.mark ',', .word "schema", .mark ')', .mark ';'] := closed_of_ascii (by decide +kernel)
    exact closed_between hfront (closed_ownedText name) hback
  | .returnReference name, _ => by
    have hfront : Closed alphabet "    Schema::reference(".toList
        [.word "Schema", .mark ':', .mark ':', .word "reference", .mark '('] :=
      closed_of_ascii (by decide +kernel)
    have hback : Closed alphabet ")\n".toList [.mark ')'] := closed_of_ascii (by decide +kernel)
    exact closed_between hfront (closed_quote name) hback

/-- Texts in a row. -/
theorem closed_flatMap {α : Type} {print : α → String} {lexemes : α → List Lexeme} {items : List α}
    (h : ∀ item ∈ items, Closed alphabet (print item).toList (lexemes item)) :
    Closed alphabet (String.join (items.map print)).toList (items.flatMap lexemes) := by
  induction items with
  | nil => exact closed_nil
  | cons item rest ih =>
    have hrest := ih fun other hother => h other (List.mem_cons_of_mem _ hother)
    simpa using (h item (by simp)).append hrest

/-- **The text of a function is read as its lexemes.** -/
theorem closed_printFunction {function : Function} (hname : alphabet.IsName function.name)
    (h : ∀ statement ∈ function.body, statement.Uses alphabet.IsName) :
    Closed alphabet function.print.toList function.lexemes := by
  have hfront : Closed alphabet "pub fn ".toList [.word "pub", .word "fn"] :=
    closed_of_ascii (by decide +kernel)
  have hresult : Closed alphabet " -> Schema \x7b\n".toList
      [.mark '-', .mark '>', .word "Schema", .mark '\x7b'] := closed_of_ascii (by decide +kernel)
  have hback : Closed alphabet "\x7d\n".toList [.mark '\x7d'] := closed_of_ascii (by decide +kernel)
  have hbody := (hresult.append (closed_flatMap fun statement hmem =>
    closed_printStatement statement (h statement hmem))).append hback
  have hhead : Closed alphabet (function.name.toList ++
      (if function.isGivenRegistry then "(defs: &mut Definitions)" else "()").toList)
      (.word function.name :: lexemesOfParameters function.isGivenRegistry) := by
    cases function.isGivenRegistry with
    | true =>
      have hparameters : Closed alphabet "(defs: &mut Definitions)".toList
          (lexemesOfParameters true) := closed_of_ascii (by decide +kernel)
      exact closed_ended (reads_name hname) (by decide) hparameters
    | false =>
      have hparameters : Closed alphabet "()".toList (lexemesOfParameters false) :=
        closed_of_ascii (by decide +kernel)
      exact closed_ended (reads_name hname) (by decide) hparameters
  have htext := hfront.append (hhead.append hbody)
  unfold Function.print Function.lexemes
  simpa only [String.toList_append, List.append_assoc, List.cons_append, List.nil_append] using htext

/-! ### Reading statements back -/

theorem noLiteral_builderName (ident : String) : NoLiteral (CompilationUnit.builderName ident) := by
  refine ⟨fun h => ?_, fun h => ?_⟩ <;>
  · have hlast := congrArg (fun s => s.toList.getLast?) h
    simp [CompilationUnit.builderName] at hlast

/-- A function that is called on two arguments. -/
theorem Parses.readItems_two {first second : List Lexeme} {e e' : Expression} (h : Parses first e)
    (h' : Parses second e') (fuel : ℕ) (rest : List Lexeme)
    (hfuel : 2 * (first ++ .mark ',' :: second).length + 1 ≤ fuel) :
    readItems fuel ')' (first ++ .mark ',' :: second ++ .mark ')' :: rest) =
      some ([e, e'], rest) := by
  obtain ⟨fuel, rfl⟩ : ∃ k, fuel = k + 2 := ⟨fuel - 2, by simp at hfuel; omega⟩
  simp only [List.length_append, List.length_cons] at hfuel
  have hbound : 2 * second.length ≤ fuel := by omega
  have hsecond := h'.readItems_last (.inl rfl) hbound rest
  simpa using h.readItems_cons (.inl rfl) (by omega) hsecond

/-- A registry that is lent. -/
theorem parses_lent (name : String) :
    Parses [.mark '&', .word "mut", .word name] (.lent name) where
  begins := ⟨_, _, rfl, nofun, nofun⟩
  reads fuel rest _ hfuel := by
    obtain ⟨fuel, rfl⟩ : ∃ k, fuel = k + 1 := ⟨fuel - 1, by simp at hfuel; omega⟩
    simp [readExpression]

/-- A method of a variable, and perhaps others that are called on its result. -/
theorem readExpression_method {name : String} (method : String) {arguments rest : List Lexeme}
    {items : List Expression} (hname : NoLiteral name) {fuel : ℕ}
    (hitems : readItems (fuel + 1) ')' (arguments ++ .mark ')' :: rest) = some (items, rest)) :
    readExpression (fuel + 3)
        (.word name :: .mark '.' :: .word method :: .mark '(' :: (arguments ++ .mark ')' :: rest)) =
      readMethods (fuel + 1) (.method (.path [name]) method items) rest := by
  simp [readExpression, hname.1, hname.2, readPath, readMethods, hitems]

/-- A method of a variable. -/
theorem parses_method {name : String} (method : String) {arguments : List Lexeme}
    {items : List Expression} (hname : NoLiteral name)
    (hitems : ∀ fuel rest, 2 * arguments.length + 1 ≤ fuel →
      readItems fuel ')' (arguments ++ .mark ')' :: rest) = some (items, rest)) :
    Parses (.word name :: .mark '.' :: .word method :: .mark '(' :: arguments ++ [.mark ')'])
      (.method (.path [name]) method items) where
  begins := ⟨_, _, rfl, nofun, nofun⟩
  reads fuel rest hends hfuel := by
    obtain ⟨fuel, rfl⟩ : ∃ k, fuel = k + 3 := ⟨fuel - 3, by simp at hfuel; omega⟩
    have hread := hitems (fuel + 1) rest (by simp at hfuel; omega)
    have hmethods := readMethods_of_ends hends fuel (.method (.path [name]) method items)
    simp only [List.cons_append, List.append_assoc, List.nil_append]
    exact (readExpression_method method hname hread).trans hmethods

theorem Parses.readBody_let {ls others rest : List Lexeme} {e result : Expression} (h : Parses ls e)
    {fuel : ℕ} (hfuel : 2 * ls.length ≤ fuel) (name : String)
    {body : List Program.Statement} (hothers : readBody fuel others = some (body, result, rest)) :
    readBody (fuel + 1) (.word "let" :: .word name :: .mark '=' :: (ls ++ .mark ';' :: others)) =
      some (.bind (boundName name) e :: body, result, rest) := by
  have hread := h.reads fuel (.mark ';' :: others) ⟨';', others, rfl, by simp⟩ hfuel
  simp [readBody, hread, hothers]

theorem Parses.readBody_letMut {ls others rest : List Lexeme} {e result : Expression}
    (h : Parses ls e) {fuel : ℕ} (hfuel : 2 * ls.length ≤ fuel) (name : String)
    {body : List Program.Statement} (hothers : readBody fuel others = some (body, result, rest)) :
    readBody (fuel + 1)
        (.word "let" :: .word "mut" :: .word name :: .mark '=' :: (ls ++ .mark ';' :: others)) =
      some (.bind (boundName name) e :: body, result, rest) := by
  have hread := h.reads fuel (.mark ';' :: others) ⟨';', others, rfl, by simp⟩ hfuel
  simp [readBody, hread, hothers]

/-- A value that is computed for what it does. -/
theorem Parses.readBody_perform {s : String} {ls others rest : List Lexeme} {e result : Expression}
    (h : Parses (.word s :: ls) e) {fuel : ℕ} (hfuel : 2 * (ls.length + 1) ≤ fuel) (hlet : s ≠ "let")
    (hif : s ≠ "if") {body : List Program.Statement}
    (hothers : readBody fuel others = some (body, result, rest)) :
    readBody (fuel + 1) (.word s :: (ls ++ .mark ';' :: others)) =
      some (.perform e :: body, result, rest) := by
  have hread := h.reads fuel (.mark ';' :: others) ⟨';', others, rfl, by simp⟩ hfuel
  rw [List.cons_append] at hread
  simp [readBody, hlet, hif, hread, hothers]

/-- The value that is returned at the end. -/
theorem Parses.readBody_result {s : String} {ls : List Lexeme} {e : Expression}
    (h : Parses (.word s :: ls) e) {fuel : ℕ} (hfuel : 2 * (ls.length + 1) ≤ fuel) (hlet : s ≠ "let")
    (hif : s ≠ "if") (rest : List Lexeme) :
    readBody (fuel + 1) (.word s :: (ls ++ .mark '\x7d' :: rest)) = some ([], e, rest) := by
  have hread := h.reads fuel (.mark '\x7d' :: rest) ⟨'\x7d', rest, rfl, by simp⟩ hfuel
  rw [List.cons_append] at hread
  simp [readBody, hlet, hif, hread]

/-- The early return of a builder. A brace follows the condition, which would go on with a name. -/
theorem readBody_returnIfRegistered (name : String) {others rest : List Lexeme} {result : Expression}
    {fuel : ℕ} (hfuel : 14 ≤ fuel) {body : List Program.Statement}
    (hothers : readBody fuel others = some (body, result, rest)) :
    readBody (fuel + 1) ((Statement.returnIfRegistered name).lexemes ++ others) =
      some (.returnIf (.method (.path ["defs"]) "contains_key" [.text name])
        (.call ["Schema", "reference"] [.text name]) :: body, result, rest) := by
  have hcondition (rest : List Lexeme) : readExpression fuel
      (.word "defs" :: .mark '.' :: .word "contains_key" :: .mark '(' ::
        ([.text name] ++ .mark ')' :: .mark '\x7b' :: rest)) =
      some (.method (.path ["defs"]) "contains_key" [.text name], .mark '\x7b' :: rest) := by
    obtain ⟨k, rfl⟩ : ∃ k, fuel = k + 3 := ⟨fuel - 3, by omega⟩
    have hitems := (parses_slice name).readItems_one (k + 1) (.mark '\x7b' :: rest) (by simp; omega)
    rw [readExpression_method "contains_key" ⟨by decide, by decide⟩ hitems]
    simp
  have hreference := (parses_reference name).reads fuel (.mark ';' :: .mark '\x7d' :: others)
    ⟨';', _, rfl, by decide⟩ (by simp [Code.lexemes]; omega)
  simp only [Code.lexemes, Code.expression, List.cons_append, List.nil_append] at hcondition hreference
  simp [Statement.lexemes, hcondition, hreference, hothers]

/-! ### Reading functions back -/

/-- A function of a module is read back as a function of the language. -/
structure Function.ReadsAs (function : Function) (program : Program.Function) : Prop where
  name : program.name = function.name
  parameter : program.parameter = if function.isGivenRegistry then some "defs" else none
  body : ∀ fuel rest, 2 * (function.body.flatMap Statement.lexemes).length + 1 ≤ fuel →
    readBody fuel (function.body.flatMap Statement.lexemes ++ .mark '\x7d' :: rest) =
      some (program.body, program.result, rest)

theorem readsAs_root (type : GeneratedType) : (rootFunction type).ReadsAs (rootProgram type) where
  name := rfl
  parameter := rfl
  body fuel rest hfuel := by
    have hnew : Parses [.word "Definitions", .mark ':', .mark ':', .word "new", .mark '(', .mark ')']
        (.call ["Definitions", "new"] []) :=
      parses_call "Definitions" [.mark ':', .mark ':', .word "new"] (by decide) (by decide)
        (fun rest => by simp [readPath]) readItems_none
    have hcall : Parses [.word (CompilationUnit.builderName type.ident), .mark '(', .mark '&',
        .word "mut", .word "defs", .mark ')']
        (.call [CompilationUnit.builderName type.ident] [.lent "defs"]) :=
      parses_call _ [] (noLiteral_builderName _).1 (noLiteral_builderName _).2
        (fun rest => by simp [readPath]) (parses_lent "defs").readItems_one
    have hdefs : Parses [.word "defs"] (.path ["defs"]) := parses_variable ⟨by decide, by decide⟩
    have hroot : Parses [.word "Schema", .mark ':', .mark ':', .word "root_reference", .mark '(',
        .text type.fullName, .mark ',', .word "defs", .mark ')']
        (.call ["Schema", "root_reference"] [.text type.fullName, .path ["defs"]]) :=
      parses_call "Schema" [.mark ':', .mark ':', .word "root_reference"] (by decide) (by decide)
        (fun rest => by simp [readPath]) ((parses_slice type.fullName).readItems_two hdefs)
    simp [rootFunction, Statement.lexemes] at hfuel
    obtain ⟨fuel, rfl⟩ : ∃ k, fuel = k + 3 := ⟨fuel - 3, by omega⟩
    have hthird : readBody (fuel + 1) _ = some ([], _, rest) :=
      hroot.readBody_result (by simp; omega) (by decide) (by decide) rest
    have hsecond := hcall.readBody_let (by simp; omega) "_" hthird
    have hfirst := hnew.readBody_letMut (by simp; omega) "defs" hsecond
    simpa [rootFunction, rootProgram, Statement.lexemes, boundName] using hfirst

theorem readsAs_register {callees : Dictionary String} {type : GeneratedType}
    (h : (codeOf callees type.shape).Uses NoLiteral) :
    (registerFunction callees type).ReadsAs (registerProgram callees type) where
  name := rfl
  parameter := rfl
  body fuel rest hfuel := by
    have hdefs : NoLiteral "defs" := ⟨by decide, by decide⟩
    have hblank : Parses (.word "defs" :: .mark '.' :: .word "insert" :: .mark '(' ::
        (lexemesOfText type.fullName ++ .mark ',' :: Code.blank.lexemes) ++ [.mark ')'])
        (.method (.path ["defs"]) "insert"
          [expressionOfText type.fullName, Code.blank.expression]) :=
      parses_method "insert" hdefs ((parses_text type.fullName).readItems_two parses_blank)
    have hbuild : Parses (codeOf callees type.shape).lexemes (codeOf callees type.shape).expression :=
      parses_lexemes _ h
    have hbuilt : Parses (.word "defs" :: .mark '.' :: .word "insert" :: .mark '(' ::
        (lexemesOfText type.fullName ++ .mark ',' :: [.word "schema"]) ++ [.mark ')'])
        (.method (.path ["defs"]) "insert" [expressionOfText type.fullName, .path ["schema"]]) :=
      parses_method "insert" hdefs ((parses_text type.fullName).readItems_two
        (parses_variable ⟨by decide, by decide⟩))
    have hreference := parses_reference type.fullName
    simp [registerFunction, Statement.lexemes, lexemesOfText] at hfuel
    obtain ⟨fuel, rfl⟩ : ∃ k, fuel = k + 5 := ⟨fuel - 5, by omega⟩
    have hfifth : readBody (fuel + 1) _ = some ([], _, rest) :=
      hreference.readBody_result (by simp; omega) (by decide) (by decide) rest
    have hfourth := hbuilt.readBody_perform (by simp [lexemesOfText]; omega) (by decide) (by decide)
      hfifth
    have hthird := hbuild.readBody_let (by omega) "schema" hfourth
    have hsecond := hblank.readBody_perform (by simp [lexemesOfText, Code.lexemes]; omega)
      (by decide) (by decide) hthird
    have hfirst := readBody_returnIfRegistered type.fullName (by omega) hsecond
    simpa [registerFunction, registerProgram, Statement.lexemes, boundName, lexemesOfText,
      Code.lexemes, Code.expression] using hfirst

/-- A function, and then others. -/
theorem Function.ReadsAs.readFunctions_cons {function : Function} {program : Program.Function}
    (h : function.ReadsAs program) {fuel : ℕ} (hfuel : 2 * function.lexemes.length ≤ fuel)
    {others : List Lexeme} {programs : List Program.Function}
    (hothers : readFunctions fuel others = some programs) :
    readFunctions (fuel + 1) (function.lexemes ++ others) = some (program :: programs) := by
  have hbody := h.body fuel others (by
    simp only [Function.lexemes, List.length_append, List.length_cons] at hfuel
    omega)
  obtain ⟨name, parameter, body, result⟩ := program
  obtain rfl : name = function.name := h.name
  have hparameter : parameter = if function.isGivenRegistry then some "defs" else none := h.parameter
  cases hgiven : function.isGivenRegistry with
  | true =>
    obtain rfl : parameter = some "defs" := by simpa [hgiven] using hparameter
    simp [Function.lexemes, lexemesOfParameters, hgiven, readFunctions, readSignature, hbody, hothers]
  | false =>
    obtain rfl : parameter = none := by simpa [hgiven] using hparameter
    simp [Function.lexemes, lexemesOfParameters, hgiven, readFunctions, readSignature, hbody, hothers]

/-- **Functions are read back one after the other.** -/
theorem readFunctions_lexemes {functions : List Function} {programs : List Program.Function}
    (h : List.Forall₂ Function.ReadsAs functions programs) {fuel : ℕ}
    (hfuel : 2 * (functions.flatMap Function.lexemes).length + 1 ≤ fuel) :
    readFunctions fuel (functions.flatMap Function.lexemes) = some programs := by
  induction h generalizing fuel with
  | nil =>
    obtain ⟨fuel, rfl⟩ : ∃ k, fuel = k + 1 := ⟨fuel - 1, by omega⟩
    simp [readFunctions]
  | @cons function program functions programs hfirst hrest ih =>
    obtain ⟨fuel, rfl⟩ : ∃ k, fuel = k + 1 := ⟨fuel - 1, by omega⟩
    have hnonempty : 0 < function.lexemes.length := by simp [Function.lexemes]
    simp only [List.flatMap_cons, List.length_append] at hfuel ⊢
    exact hfirst.readFunctions_cons (by omega) (ih (by omega))

end MessageSchema.Builder
