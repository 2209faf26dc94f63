import MessageSchema.Proofs.Builder.Functions
import Mathlib.Data.List.Forall2

/-!
# The module of a unit is read as its functions

What stands in front of the functions is a header between comments, and every pair of functions has a
comment of its own. Comments leave no lexemes, provided that nothing in them breaks the line: the path
of the source, the version, the time and the names of the messages.

## Main results

* `Builder.closed_printModule`: the text of a module is read as the header and its functions.
* `Builder.readModule_moduleOf`: the module of a unit is read as the functions of the unit.
-/

namespace MessageSchema

open Program

variable {alphabet : Alphabet}

/-! ### Texts on one line -/

theorem Calendar.oneLine_padded (width n : ℕ) : OneLine (padded width n) := by
  intro c hc
  rw [padded, String.toList_ofList] at hc
  have hdigit : c.isDigit = true := by
    rcases List.mem_append.mp hc with hc | hc
    · rw [(List.mem_replicate.mp hc).2]
      rfl
    · exact isDigit_toDigits hc
  constructor <;>
  · rintro rfl
    simp at hdigit

theorem Calendar.oneLine_yearText (year : ℤ) : OneLine (yearText year) := by
  unfold yearText
  split
  · exact .append (by decide) (oneLine_padded 4 _)
  · refine .append ?_ (oneLine_padded 4 _)
    split <;> decide

/-- A time is written on one line. -/
theorem Calendar.oneLine_text (seconds : ℤ) : OneLine (text seconds) := by
  have hpadded := oneLine_padded 2
  unfold text
  refine .append (.append (.append (.append (.append (.append (.append (.append (.append (.append
    (oneLine_yearText _) ?_) (hpadded _)) ?_) (hpadded _)) ?_) (hpadded _)) ?_) (hpadded _)) ?_)
    (hpadded _) <;> decide

theorem Text.oneLine_lastPiece {s : String} (separator : Char) (h : OneLine s) :
    OneLine (lastPiece separator s) := by
  intro c hc
  rw [lastPiece, String.toList_ofList, List.mem_reverse] at hc
  exact h c (List.mem_reverse.mp ((List.takeWhile_sublist _).subset hc))

namespace Builder

theorem oneLine_summary (callees : Dictionary String) {type : GeneratedType}
    (h : OneLine type.fullName) : OneLine (sectionOf callees type).summary := by
  unfold sectionOf
  cases type.origin with
  | own => exact .append (.append (by decide) (Text.oneLine_lastPiece '.' h)) (by decide)
  | shared => exact .append (.append (by decide) h) (by decide)

/-! ### The text of a module -/

/-- Texts in a row with blanks between them. -/
theorem closed_intercalate {α : Type} {separator : String} {print : α → String}
    {lexemes : α → List Lexeme} {items : List α} (hseparator : Closed alphabet separator.toList [])
    (h : ∀ item ∈ items, Closed alphabet (print item).toList (lexemes item)) :
    Closed alphabet (separator.intercalate (items.map print)).toList (items.flatMap lexemes) := by
  induction items with
  | nil => exact closed_nil
  | cons item rest ih =>
    have hfirst := h item (by simp)
    cases rest with
    | nil => simpa using hfirst
    | cons other others =>
      have hrest := ih fun other hother => h other (List.mem_cons_of_mem _ hother)
      simpa [String.intercalate_cons_cons] using hfirst.append (hseparator.append hrest)

/-- The functions of a message, with the comment in front of them. -/
theorem closed_printSection {part : Section} (hsummary : OneLine part.summary)
    (h : ∀ function ∈ part.functions, Closed alphabet function.print.toList function.lexemes) :
    Closed alphabet ("\n" ++ part.print).toList (part.functions.flatMap Function.lexemes) := by
  have hopen : scan alphabet .between "\n/// ".toList = ([], .comment) :=
    scan_of_ascii (by decide)
  have hend : scan alphabet .comment "\n".toList = ([], .between) :=
    scan_of_ascii (by decide)
  have hfunctions : Closed alphabet ("\n".intercalate (part.functions.map Function.print)).toList
      (part.functions.flatMap Function.lexemes) :=
    closed_intercalate (closed_of_ascii (by decide +kernel)) h
  have hsplit : "\n" ++ part.print = "\n/// " ++ part.summary ++ "\n" ++
      "\n".intercalate (part.functions.map Function.print) := by
    simp [Section.print, ← String.append_assoc]
  unfold Closed at hfunctions ⊢
  simp only [hsplit, String.toList_append, scan_append, hopen, scan_comment hsummary, hend, hfunctions,
    List.nil_append]

/-- The lexemes of a module. -/
def Module.lexemes (module : Module) : List Lexeme :=
  header ++ module.sections.flatMap fun part => part.functions.flatMap Function.lexemes

/-- The comment on the time. -/
theorem closed_stamp (seconds : ℤ) :
    Closed alphabet ("//\n// Generated on: " ++ Calendar.text seconds ++ " UTC\n").toList [] := by
  have hopen : scan alphabet .between "//\n// Generated on: ".toList = ([], .comment) :=
    scan_of_ascii (by decide)
  have hend : scan alphabet .comment " UTC\n".toList = ([], .between) :=
    scan_of_ascii (by decide)
  simp only [Closed, String.toList_append, scan_append, hopen,
    scan_comment (Calendar.oneLine_text seconds), hend, List.nil_append]

/-- The comment on the source and the version. -/
theorem closed_origin {source version : String} (hsource : OneLine source)
    (hversion : OneLine version) :
    Closed alphabet ("// Code generated by protoschema. DO NOT EDIT.\n//\n// Source: " ++ source ++
      "\n// Generator version: " ++ version ++ "\n").toList [] := by
  have hopen : scan alphabet .between
      "// Code generated by protoschema. DO NOT EDIT.\n//\n// Source: ".toList = ([], .comment) :=
    scan_of_ascii (by decide)
  have hbetween : scan alphabet .comment "\n// Generator version: ".toList = ([], .comment) :=
    scan_of_ascii (by decide)
  have hend : scan alphabet .comment "\n".toList = ([], .between) :=
    scan_of_ascii (by decide)
  simp only [Closed, String.toList_append, scan_append, hopen, scan_comment hsource, hbetween,
    scan_comment hversion, hend, List.nil_append]

/-- **The text of a module is read as the header and its functions.** -/
theorem closed_printModule {module : Module} (hsource : OneLine module.source)
    (hversion : OneLine module.version) (hsections : ∀ part ∈ module.sections,
      OneLine part.summary ∧
        ∀ function ∈ part.functions, Closed alphabet function.print.toList function.lexemes) :
    Closed alphabet module.print.toList module.lexemes := by
  have hallow : Closed alphabet "\n#![allow(non_snake_case)]\n\n".toList (header.take 8) :=
    closed_of_ascii (by decide +kernel)
  have huse : Closed alphabet "use protoschema_core::\x7bDefinitions, InstanceType, Schema\x7d;\n".toList
      (header.drop 8) := closed_of_ascii (by decide +kernel)
  have hfunctions := closed_flatMap fun part hpart =>
    closed_printSection (hsections part hpart).1 (hsections part hpart).2
  have hcode := (hallow.append huse).append hfunctions
  have horigin := (closed_origin hsource hversion : Closed alphabet _ _)
  have hheader : List.take 8 header ++ List.drop 8 header = header := List.take_append_drop 8 header
  obtain ⟨source, version, generatedOn, sections⟩ := module
  unfold Module.print Module.lexemes
  cases generatedOn with
  | none =>
    have hstamp : Closed alphabet "".toList [] := closed_nil
    have htext := (horigin.append hstamp).append hcode
    simpa only [String.toList_append, List.append_assoc, List.nil_append, hheader] using htext
  | some seconds =>
    have htext := (horigin.append (closed_stamp seconds)).append hcode
    simpa only [String.toList_append, List.append_assoc, List.nil_append, hheader] using htext

/-! ### The module of a unit -/

/-- A name goes on with characters that may stand in it. -/
theorem isName_append {s t : String} (hs : alphabet.IsName s)
    (ht : ∀ c ∈ t.toList, alphabet.isFurther c = true) : alphabet.IsName (s ++ t) := by
  obtain ⟨c, rest, hs, hfirst, hrest⟩ := hs
  refine ⟨c, rest ++ t.toList, by simp [hs], hfirst, fun d hd => ?_⟩
  exact (List.mem_append.mp hd).elim (hrest d) (ht d)

theorem isFurther_of_plain {s : String} (h : s.toList.all plain.isFurther = true) :
    ∀ c ∈ s.toList, alphabet.isFurther c = true := by
  intro c hc
  have hplain : c.isAlphanum = true ∨ c = '_' := by
    simpa [Alphabet.isFurther, plain] using List.all_eq_true.mp h c hc
  rcases hplain with h | rfl <;> simp [Alphabet.isFurther, *]

theorem isName_builderName {ident : String} (h : alphabet.IsName ident) :
    alphabet.IsName (CompilationUnit.builderName ident) :=
  isName_append h (isFurther_of_plain (by decide))

/-- The functions in the module of a unit. -/
def functionsOf (unit : CompilationUnit) : List Function :=
  unit.types.flatMap fun type => [rootFunction type, registerFunction unit.callees type]

theorem lexemes_moduleOf (unit : CompilationUnit) (version : String) (generatedOn : Option ℤ) :
    (moduleOf unit version generatedOn).lexemes =
      header ++ (functionsOf unit).flatMap Function.lexemes := by
  simp [Module.lexemes, moduleOf, sectionOf, functionsOf, List.flatMap_assoc, List.flatMap_map]

theorem readsAs_functionsOf {unit : CompilationUnit}
    (h : ∀ node, (codeOf unit.callees node).Uses NoLiteral) :
    List.Forall₂ Function.ReadsAs (functionsOf unit) (programOf unit) := by
  unfold functionsOf programOf
  induction unit.types with
  | nil => exact .nil
  | cons type rest ih =>
    exact .cons (readsAs_root type) (.cons (readsAs_register (h type.shape)) ih)

/-- The functions of a message are read as their lexemes if the names in them are names. -/
theorem closed_functions {callees : Dictionary String} {type : GeneratedType}
    (hident : alphabet.IsName type.ident)
    (h : ∀ node, (codeOf callees node).Uses alphabet.IsName) :
    ∀ function ∈ (sectionOf callees type).functions,
      Closed alphabet function.print.toList function.lexemes := by
  intro function hfunction
  rcases List.mem_pair.mp hfunction with rfl | rfl
  · refine closed_printFunction (isName_append hident (isFurther_of_plain (by decide))) ?_
    simp [rootFunction, Statement.Uses, isName_builderName hident]
  · refine closed_printFunction (isName_builderName hident) ?_
    simp [registerFunction, Statement.Uses, h]

theorem lexemes_of_closed {s : String} {ls : List Lexeme} (h : Closed alphabet s.toList ls) :
    Program.lexemes alphabet s = ls := by
  unfold Closed at h
  simp [Program.lexemes, h, finish]

/-- **The module of a unit is read as the functions of the unit.** -/
theorem readModule_moduleOf {unit : CompilationUnit} {version : String} {generatedOn : Option ℤ}
    (hsource : OneLine unit.source) (hversion : OneLine version)
    (htypes : ∀ type ∈ unit.types, OneLine type.fullName ∧ alphabet.IsName type.ident)
    (hcallees : ∀ name builder, unit.callees.get? name = some builder →
      ∃ type ∈ unit.types, builder = CompilationUnit.builderName type.ident) :
    readModule alphabet (moduleOf unit version generatedOn).print = some (programOf unit) := by
  have hnamed : ∀ node, (codeOf unit.callees node).Uses alphabet.IsName := by
    refine uses_codeOf (fun name hname => isName_of_plain ?_) fun name builder hbuilder => ?_
    · revert name
      decide +kernel
    · obtain ⟨type, htype, rfl⟩ := hcallees name builder hbuilder
      exact isName_builderName (htypes type htype).2
  have hliteral : ∀ node, (codeOf unit.callees node).Uses NoLiteral := by
    refine uses_codeOf (by simp [setters, NoLiteral]) fun name builder hbuilder => ?_
    obtain ⟨type, -, rfl⟩ := hcallees name builder hbuilder
    exact noLiteral_builderName type.ident
  have htext : Closed alphabet (moduleOf unit version generatedOn).print.toList
      (moduleOf unit version generatedOn).lexemes := by
    refine closed_printModule hsource hversion fun part hpart => ?_
    obtain ⟨type, htype, rfl⟩ := List.mem_map.mp hpart
    obtain ⟨hline, hident⟩ := htypes type htype
    exact ⟨oneLine_summary _ hline, closed_functions hident hnamed⟩
  have hheader : header.isPrefixOf? (header ++ (functionsOf unit).flatMap Function.lexemes) =
      some ((functionsOf unit).flatMap Function.lexemes) :=
    List.isPrefixOf?_eq_some_iff_append_eq.mpr rfl
  unfold readModule
  rw [lexemes_of_closed htext, lexemes_moduleOf, hheader]
  exact readFunctions_lexemes (readsAs_functionsOf hliteral) le_rfl

end Builder

end MessageSchema
