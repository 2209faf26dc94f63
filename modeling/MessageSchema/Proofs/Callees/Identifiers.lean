import MessageSchema.Proofs.Builder.Module
import MessageSchema.Proofs.Callees.Distinct
import MessageSchema.Proofs.Disk.Place
import MessageSchema.Proofs.Selection.Members

/-!
# When the names in a module are names

Full names of messages are names with dots between them, and the name of a builder has an underscore
for every dot. The stem of a file is used as it is, whatever it consists of: in front of the name of a
shared message, and in the name of the module of another file. So the names in the module of a unit
are names of the language exactly if the stems that are used begin one.

## Main definitions

* `Program.Alphabet.IsPath`: names with double colons between them.
* `Program.Alphabet.BeginsName`: nothing or a name, to which an underscore can be added.
* `CompilationUnit.EmitsNames`: the identifiers of a unit are names, and its callees are paths.
* `CompilationUnit.StemFits`: the stem that the builder of a message is made of fits.

## Main results

* `CompilationUnit.isName_localIdent`: the builders of the messages of a file have names.
* `CompilationUnit.isPath_calleeOf_iff`: when a callee is a path.
* `CompilationUnit.isPath_moduleName_iff`: when the module of another file has a name.
* `CompilationUnit.emitsNames_iff_stemFits`: when the names in the module of a unit are names.
* `CompilationUnit.not_emitsNames`: a stem with a dash in front of a shared message.
-/

namespace MessageSchema

namespace Program

variable {alphabet : Alphabet} {s t : String}

/-! ### Paths -/

/-- The segments of a path, with double colons between them. -/
def segments : List Char → List (List Char)
  | [] => [[]]
  | ':' :: ':' :: cs => [] :: segments cs
  | c :: cs => match segments cs with
    | [] => [[c]]
    | segment :: rest => (c :: segment) :: rest

/-- A path: every segment of it is a name. -/
def Alphabet.IsPath (alphabet : Alphabet) (s : String) : Prop :=
  ∀ segment ∈ segments s.toList, alphabet.IsName (String.ofList segment)

/-- A text that an underscore makes the beginning of a name: nothing, or a name. -/
def Alphabet.BeginsName (alphabet : Alphabet) (s : String) : Prop :=
  s = "" ∨ alphabet.IsName s

instance (alphabet : Alphabet) (s : String) : Decidable (alphabet.IsPath s) :=
  inferInstanceAs (Decidable (∀ segment ∈ _, _))

instance (alphabet : Alphabet) (s : String) : Decidable (alphabet.BeginsName s) :=
  inferInstanceAs (Decidable (_ ∨ _))

theorem segments_ne_nil (cs : List Char) : segments cs ≠ [] := by
  fun_cases segments cs <;> simp

/-- A character that is not the first of two colons joins the first segment. -/
theorem segments_cons {c : Char} (cs : List Char) (h : c = ':' → cs.head? ≠ some ':') :
    ∃ segment rest, segments cs = segment :: rest ∧ segments (c :: cs) = (c :: segment) :: rest := by
  obtain ⟨segment, rest, hsegments⟩ := List.exists_cons_of_ne_nil (segments_ne_nil cs)
  refine ⟨segment, rest, hsegments, ?_⟩
  rw [segments, hsegments]
  rintro cs' rfl rfl
  exact h rfl rfl

/-- Double colons part the segments in front of them from those behind, unless a third colon stands
in front. -/
theorem segments_append {cs : List Char} (h : cs.getLast? ≠ some ':') (ds : List Char) :
    segments (cs ++ ':' :: ':' :: ds) = segments cs ++ segments ds := by
  have htail (c : Char) (cs : List Char) (h : (c :: cs).getLast? ≠ some ':') :
      cs.getLast? ≠ some ':' := by
    cases cs with
    | nil => exact nofun
    | cons d cs => simpa using h
  fun_induction segments cs with
  | case1 => simp [segments]
  | case2 cs ih =>
    rw [List.cons_append, List.cons_append, segments, ih (htail _ _ (htail _ _ h)), List.cons_append]
  | case3 c cs hcolon hnil ih => exact absurd hnil (segments_ne_nil cs)
  | case4 c cs hcolon segment rest hsegments ih =>
    have hfirst : c = ':' → (cs ++ ':' :: ':' :: ds).head? ≠ some ':' := by
      rintro rfl
      cases cs with
      | nil => exact absurd rfl h
      | cons d cs => simpa using hcolon cs rfl
    obtain ⟨segment', rest', heq, hcons⟩ := segments_cons (cs ++ ':' :: ':' :: ds) hfirst
    rw [ih (htail _ _ h), hsegments, List.cons_append] at heq
    obtain ⟨rfl, rfl⟩ := List.cons.inj heq
    rw [List.cons_append, hcons, List.cons_append]

/-- A text without colons is one segment. -/
theorem segments_of_not_mem {cs : List Char} (h : ':' ∉ cs) : segments cs = [cs] := by
  induction cs with
  | nil => rfl
  | cons c cs ih =>
    obtain ⟨hc, hcs⟩ : ':' ≠ c ∧ ':' ∉ cs := by simpa using h
    obtain ⟨segment, rest, hsegments, hcons⟩ := segments_cons cs (absurd · (Ne.symm hc))
    rw [ih hcs] at hsegments
    obtain ⟨rfl, rfl⟩ := List.cons.inj hsegments
    exact hcons

/-- Beyond letters, digits and underscores, no character in ASCII is in a name. -/
theorem Alphabet.IsName.not_mem {c : Char} (h : alphabet.IsName s) (hascii : c.toNat < 128)
    (hc : plain.isFurther c = false) : c ∉ s.toList := by
  obtain ⟨hletter, hunderscore⟩ : c.isAlphanum = false ∧ c ≠ '_' := by
    simpa [Alphabet.isFurther, plain] using hc
  have hbeyond : ¬ 128 ≤ c.toNat := by omega
  obtain ⟨first, rest, hs, hfirst, hrest⟩ := h
  rw [hs, List.mem_cons]
  rintro (rfl | hmem)
  · have halpha : c.isAlpha = false := (Bool.or_eq_false_iff.mp hletter).1
    simp [Alphabet.isFirst, halpha, hunderscore, hbeyond] at hfirst
  · simpa [Alphabet.isFurther, hletter, hunderscore, hbeyond] using hrest c hmem

theorem Alphabet.IsName.colon_not_mem (h : alphabet.IsName s) : ':' ∉ s.toList :=
  h.not_mem (by decide) (by decide)

/-- A name is a path by itself. -/
theorem Alphabet.IsName.isPath (h : alphabet.IsName s) : alphabet.IsPath s := by
  rw [Alphabet.IsPath, segments_of_not_mem h.colon_not_mem]
  simpa using h

/-- A path consists of what stands in front of double colons and what stands behind them. -/
theorem isPath_append_iff (h : s.toList.getLast? ≠ some ':') :
    alphabet.IsPath (s ++ "::" ++ t) ↔ alphabet.IsPath s ∧ alphabet.IsPath t := by
  have htext : (s ++ "::" ++ t).toList = s.toList ++ ':' :: ':' :: t.toList := by simp
  rw [Alphabet.IsPath, htext, segments_append h, List.forall_mem_append]
  rfl

/-- What stands in front of an underscore and further characters of a name. -/
theorem isName_append_iff {rest : List Char} (ht : t.toList = '_' :: rest)
    (hrest : ∀ c ∈ rest, alphabet.isFurther c = true) :
    alphabet.IsName (s ++ t) ↔ alphabet.BeginsName s := by
  have hfurther : ∀ c ∈ t.toList, alphabet.isFurther c = true := by
    rw [ht, List.forall_mem_cons]
    exact ⟨by simp [Alphabet.isFurther], hrest⟩
  constructor
  · rintro ⟨c, further, htext, hfirst, hall⟩
    cases hs : s.toList with
    | nil => exact .inl (String.toList_eq_nil_iff.mp hs)
    | cons d ds =>
      rw [String.toList_append, hs, List.cons_append, List.cons.injEq] at htext
      obtain ⟨rfl, rfl⟩ := htext
      exact .inr ⟨d, ds, hs, hfirst, fun e he => hall e (List.mem_append_left _ he)⟩
  · rintro (rfl | hs)
    · exact ⟨'_', rest, by simp [ht], by simp [Alphabet.isFirst], hrest⟩
    · exact Builder.isName_append hs hfurther

end Program

namespace CompilationUnit

open Program

variable {alphabet : Alphabet} {pool : Pool} {set : DescriptorSet} {settings : Settings}
  {file : File} {unit : CompilationUnit} {selected : List Message} {message : Message}
  {name stem ident : String}

/-! ### Names with dots -/

/-- Names in ASCII with dots between them. -/
def DottedName (name : String) : Prop :=
  ∀ piece ∈ Text.pieces '.' name.toList, plain.IsName (String.ofList piece)

instance (name : String) : Decidable (DottedName name) :=
  inferInstanceAs (Decidable (∀ piece ∈ _, _))

/-- A character that is no separator is in one of the pieces. -/
theorem exists_mem_pieces {separator c : Char} {cs : List Char} (hc : c ∈ cs) (hne : c ≠ separator) :
    ∃ piece ∈ Text.pieces separator cs, c ∈ piece := by
  induction cs with
  | nil => cases hc
  | cons d cs ih =>
    by_cases hd : d = separator
    · rw [hd, Text.pieces_separator_cons]
      have hcs : c ∈ cs := (List.mem_cons.mp hc).resolve_left (hd ▸ hne)
      obtain ⟨piece, hpiece, hmem⟩ := ih hcs
      exact ⟨piece, List.mem_cons_of_mem _ hpiece, hmem⟩
    · obtain ⟨first, rest, hpieces, hcons⟩ := Text.pieces_cons hd cs
      rw [hcons]
      rcases List.mem_cons.mp hc with rfl | hcs
      · exact ⟨c :: first, List.mem_cons_self, List.mem_cons_self⟩
      · obtain ⟨piece, hpiece, hmem⟩ := ih hcs
        rw [hpieces] at hpiece
        rcases List.mem_cons.mp hpiece with rfl | hpiece
        · exact ⟨d :: piece, List.mem_cons_self, List.mem_cons_of_mem _ hmem⟩
        · exact ⟨piece, List.mem_cons_of_mem _ hpiece, hmem⟩

theorem isFurther_of_isName {c : Char} (h : plain.IsName name) (hc : c ∈ name.toList) :
    plain.isFurther c = true := by
  obtain ⟨first, rest, hname, hfirst, hrest⟩ := h
  rw [hname, List.mem_cons] at hc
  rcases hc with rfl | hc
  · have hfirst : c.isAlpha = true ∨ c = '_' := by simpa [Alphabet.isFirst, plain] using hfirst
    rcases hfirst with hfirst | rfl
    · simp [Alphabet.isFurther, Char.isAlphanum, hfirst]
    · rfl
  · exact hrest c hc

/-- Names with underscores between them are a name. -/
theorem DottedName.isName_flattened (h : DottedName name) : plain.IsName (flattened name) := by
  have hempty : ¬ plain.IsName (String.ofList []) := by decide
  cases hname : name.toList with
  | nil => exact absurd (h [] (by simp [hname, Text.pieces])) hempty
  | cons c cs =>
    have hc : c ≠ '.' := by
      rintro rfl
      exact hempty (h [] (by simp [hname, Text.pieces_separator_cons]))
    obtain ⟨piece, rest, -, hpieces⟩ := Text.pieces_cons hc cs
    obtain ⟨d, ds, hd, hfirst, -⟩ := h (c :: piece) (by simp [hname, hpieces])
    obtain ⟨rfl, rfl⟩ := List.cons.inj ((String.toList_ofList).symm.trans hd)
    refine ⟨c, cs.map fun e => if e = '.' then '_' else e, by simp [flattened, hname, hc], hfirst, ?_⟩
    rw [List.forall_mem_map]
    intro e he
    by_cases hdot : e = '.'
    · rw [if_pos hdot]
      rfl
    · rw [if_neg hdot]
      obtain ⟨piece, hpiece, hmem⟩ := exists_mem_pieces (List.mem_cons_of_mem c he) hdot
      exact isFurther_of_isName (h piece (hname ▸ hpiece)) (by simpa using hmem)

/-- What is left of such a name without the package in front is such a name. -/
theorem DottedName.relativeName (h : DottedName message.fullName) (package : String) :
    DottedName (message.relativeName package) := by
  rw [Message.relativeName]
  split
  · exact h
  · cases hstrip : Text.stripStart? (package ++ ".") message.fullName with
    | none => exact h
    | some rest =>
      have hname : message.fullName.toList = package.toList ++ '.' :: rest.toList := by
        rw [Text.stripStart?_eq_some_iff.mp hstrip]
        simp
      intro piece hpiece
      refine h piece ?_
      rw [hname, Text.pieces_append]
      exact List.mem_append_right _ hpiece

/-! ### The names in a module -/

/-- The builders of the messages of a file have names, whatever the package. -/
theorem isName_localIdent (h : DottedName message.fullName) (package : String) :
    alphabet.IsName (localIdent message package) :=
  Builder.isName_of_plain (h.relativeName package).isName_flattened

/-- The builder of a shared message has a name exactly if the stem in front of it begins one. -/
theorem isName_sharedIdent_iff (h : DottedName name) :
    alphabet.IsName (sharedIdent stem name) ↔ alphabet.BeginsName stem := by
  have htext : ("_" ++ flattened name).toList = '_' :: (flattened name).toList := by simp
  rw [sharedIdent, String.append_assoc, isName_append_iff htext]
  refine Builder.isFurther_of_plain (List.all_eq_true.mpr fun c hc => ?_)
  exact isFurther_of_isName h.isName_flattened hc

/-- The last letter of the module of a file. -/
theorem getLast?_moduleName (stem : String) : (moduleName stem).toList.getLast? ≠ some ':' := by
  simp [moduleName]

/-- A builder of the module of another file is a path exactly if the module is. -/
theorem isPath_outside_iff (h : alphabet.IsName ident) :
    alphabet.IsPath (outside stem ident) ↔ alphabet.IsPath (moduleName stem) := by
  have hsuper : alphabet.IsPath "super" :=
    (Builder.isName_of_plain (by decide) : alphabet.IsName "super").isPath
  have htext : outside stem ident =
      "super" ++ "::" ++ (moduleName stem ++ "::" ++ builderName ident) := by
    simp [outside, String.append_assoc]
  rw [htext, isPath_append_iff (by decide), isPath_append_iff (getLast?_moduleName stem)]
  simp [hsuper, (Builder.isName_builderName h).isPath]

/-- A module whose file has a stem without colons is a path exactly if the stem begins a name. -/
theorem isPath_moduleName_iff (h : NoColon stem) :
    alphabet.IsPath (moduleName stem) ↔ alphabet.BeginsName stem := by
  have hcolon : ':' ∉ (moduleName stem).toList := noColon_append.mpr ⟨h, by decide⟩
  have htext : "_jsonschema".toList = '_' :: "jsonschema".toList := rfl
  rw [Alphabet.IsPath, segments_of_not_mem hcolon, List.forall_mem_singleton, String.ofList_toList,
    moduleName]
  exact isName_append_iff htext (Builder.isFurther_of_plain (by decide))

/-- The stem that the builder of a message is made of fits: that of the file in front of a shared
message, or that of another file in the name of its module. -/
def StemFits (alphabet : Alphabet) (settings : Settings) (file : File) (message : Message) : Prop :=
  (originIn settings file message = some .shared → alphabet.BeginsName file.stem) ∧
    (originIn settings file message = none → alphabet.IsPath (moduleName (stemOfPath message.file)))

instance (alphabet : Alphabet) (settings : Settings) (file : File) (message : Message) :
    Decidable (StemFits alphabet settings file message) :=
  inferInstanceAs (Decidable (_ ∧ _))

/-- The identifiers of a unit are names, and its callees are paths. -/
structure EmitsNames (alphabet : Alphabet) (unit : CompilationUnit) : Prop where
  idents : ∀ type ∈ unit.types, alphabet.IsName type.ident
  callees : ∀ name builder, unit.callees.get? name = some builder → alphabet.IsPath builder

/-- The identifier of a message in the unit of a file is a name exactly if its stem fits. -/
theorem isName_identOf_iff {origin : Origin} (h : DottedName message.fullName)
    (horigin : originIn settings file message = some origin) :
    alphabet.IsName (identOf file origin message) ↔ StemFits alphabet settings file message := by
  rw [StemFits, horigin]
  cases origin with
  | own => exact iff_of_true (isName_localIdent h file.package) ⟨nofun, nofun⟩
  | shared => simpa [identOf] using isName_sharedIdent_iff h

/-- The callee of a message of another file is a path exactly if its stem fits. -/
theorem isPath_calleeOf_iff (h : DottedName message.fullName)
    (horigin : originIn settings file message = none) :
    alphabet.IsPath (calleeOf pool settings file message) ↔
      StemFits alphabet settings file message := by
  have hcallee : calleeOf pool settings file message =
      outside (stemOfPath message.file)
        (localIdent message ((pool.packageOf? message.fullName).getD "")) := by
    rw [calleeOf, horigin]
    rfl
  rw [hcallee, StemFits, horigin]
  simpa using isPath_outside_iff (isName_localIdent h _)

/-- **When the names in a module are names.** In the unit of a file of a set whose messages have
names with dots between them, the identifiers are names and the callees are paths exactly if the stems
fit that the builders of the selected messages are made of. -/
theorem emitsNames_iff_stemFits (alphabet : Alphabet)
    (hnames : ∀ message ∈ set.messages, DottedName message.fullName) (hfile : file ∈ set.files)
    (hcompile : compile set.pool settings file = .ok (some unit))
    (hselected : selectionOf set.pool file = .ok selected) :
    unit.EmitsNames alphabet ↔ ∀ message ∈ selected, StemFits alphabet settings file message := by
  obtain ⟨hnodup, hdeclared⟩ := declared_of_selectionOf hfile hselected
  obtain ⟨found, hfound, htypes, -⟩ := compile_eq_ok hcompile
  obtain rfl : selected = found := Except.ok.inj (hselected.symm.trans hfound)
  constructor
  · intro h message hmessage
    have hname := hnames message (hdeclared message hmessage)
    cases horigin : originIn settings file message with
    | none =>
      have hcallee := (get?_callees hcompile hselected hnodup).mpr ⟨message, hmessage, rfl, rfl⟩
      exact (isPath_calleeOf_iff hname horigin).mp (h.callees _ _ hcallee)
    | some origin =>
      obtain ⟨type, htype, hgenerate⟩ :=
        (mem_generateAll htypes).2 (origin, message) (mem_keptOf.mpr ⟨hmessage, horigin⟩)
      refine (isName_identOf_iff hname horigin).mp ?_
      rw [← (generate_eq_ok hgenerate).2.1]
      exact h.idents type htype
  · intro h
    refine ⟨fun type htype => ?_, fun name builder hcallee => ?_⟩
    · obtain ⟨message, hmessage, origin, horigin, -, hident, -⟩ :=
        mem_types hcompile hselected htype
      rw [hident]
      exact (isName_identOf_iff (hnames message (hdeclared message hmessage)) horigin).mpr
        (h message hmessage)
    · obtain ⟨message, hmessage, rfl, rfl⟩ := (get?_callees hcompile hselected hnodup).mp hcallee
      have hname := hnames message (hdeclared message hmessage)
      cases horigin : originIn settings file message with
      | none => exact (isPath_calleeOf_iff hname horigin).mpr (h message hmessage)
      | some origin =>
        have hident : alphabet.IsName (identOf file origin message) :=
          (isName_identOf_iff hname horigin).mpr (h message hmessage)
        rw [calleeOf, horigin]
        exact (Builder.isName_builderName hident).isPath

/-- Orders beside a shared message and a message of another file. -/
theorem emitsNames_iff_stemFits_orders : ∃ unit selected,
    (∀ message ∈ orderSet.messages, DottedName message.fullName) ∧ orderFile ∈ orderSet.files ∧
    compile orderSet.pool {} orderFile = .ok (some unit) ∧
    selectionOf orderSet.pool orderFile = .ok selected ∧
    selected.map (originIn {} orderFile) = [some .own, some .shared, none, some .own] ∧
    unit.EmitsNames plain := by
  obtain ⟨selected, hselected, hfits⟩ :
      ∃ selected, selectionOf orderSet.pool orderFile = .ok selected ∧ decide
        (selected.map (originIn {} orderFile) = [some .own, some .shared, none, some .own] ∧
          ∀ message ∈ selected, StemFits plain {} orderFile message) = true :=
    Except.exists_of_succeedsWith (by decide +kernel)
  obtain ⟨result, hcompile, hsome⟩ : ∃ result,
      compile orderSet.pool {} orderFile = .ok result ∧ result.isSome = true :=
    Except.exists_of_succeedsWith (by decide +kernel)
  obtain ⟨unit, rfl⟩ := Option.isSome_iff_exists.mp hsome
  have hnames : ∀ message ∈ orderSet.messages, DottedName message.fullName := by decide
  have hfile : orderFile ∈ orderSet.files := List.mem_cons_self
  obtain ⟨horigins, hfits⟩ := of_decide_eq_true hfits
  exact ⟨unit, selected, hnames, hfile, hcompile, hselected, horigins,
    (emitsNames_iff_stemFits plain hnames hfile hcompile hselected).mpr hfits⟩

/-- A message with a time, in a file whose path has a dash in it. -/
def dashedFile : File where
  path := "a-b.proto"
  package := "a"
  overlay := some (.object [("generate", .boolean true)])
  messages := [
    { name := "M", fullName := "a.M", file := "a-b.proto",
      fields := [{ name := "at", number := 1, kind := .message, typeName := some "google.Time" }] }]

/-- The file with the one that it refers to. -/
def dashedSet : DescriptorSet where
  files := [dashedFile,
    { path := "google/time.proto", package := "google"
      messages := [{ name := "Time", fullName := "google.Time", file := "google/time.proto" }] }]
  targets := []

/-- **An identifier may have a dash in it.** Whatever may stand in names beyond ASCII, it is not true
that messages with names give builders with names. -/
theorem not_emitsNames : ¬ ∃ alphabet : Alphabet, ∀ (set : DescriptorSet) (settings : Settings)
    (file : File) (unit : CompilationUnit), (∀ file ∈ set.files, DottedName file.package) →
    (∀ message ∈ set.messages, plain.IsName message.name ∧ DottedName message.fullName) →
    file ∈ set.files → compile set.pool settings file = .ok (some unit) →
    unit.EmitsNames alphabet := by
  rintro ⟨alphabet, hall⟩
  obtain ⟨result, hcompile, hresult⟩ : ∃ result,
      compile dashedSet.pool {} dashedFile = .ok result ∧
        (result.any fun unit => unit.types.any fun type => type.ident = "a-b_google_Time") = true :=
    Except.exists_of_succeedsWith (by decide +kernel)
  obtain ⟨unit, rfl, htypes⟩ := (Option.any_eq_true _ result).mp hresult
  obtain ⟨type, htype, hident⟩ := List.any_eq_true.mp htypes
  have hemits := hall dashedSet {} dashedFile unit (by decide) (by decide) List.mem_cons_self hcompile
  have hname := hemits.idents type htype
  rw [of_decide_eq_true hident] at hname
  exact hname.not_mem (by decide : ('-' : Char).toNat < 128) (by decide) (by decide)

end CompilationUnit

end MessageSchema
