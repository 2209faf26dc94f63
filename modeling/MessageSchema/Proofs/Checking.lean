import MessageSchema.Command.Check
import MessageSchema.Command.Show
import MessageSchema.Proofs.CompilationUnit
import MessageSchema.Proofs.Loading

/-!
# What a check promises

A check that reports nothing has looked at the options and the types of all declarations. What it
does not look at is how the entries of map fields are used: a field may name an entry, which is
never selected, and an entry may lack its key or its value. A set whose entries are in place as well
compiles with any settings, and each of its messages that does not opt out has a document.

## Main definitions

* `Check.Clean`: a message whose options and types are as they should be.
* `DescriptorSet.EntriesInPlace`: how the entries of map fields are used.
* `Check.Checked`: a set for which the other commands succeed.

## Main results

* `Check.report_succeeds_iff`: when a check reports nothing.
* `Check.compile_and_document_of_report`: what a check that reports nothing promises.
* `Check.not_document_of_report`: it does not promise it for a message that names an entry.
-/

namespace MessageSchema

namespace DescriptorSet

variable {set : DescriptorSet}

/-- Every entry of a map field has a key and a value. -/
def EntriesArePaired (set : DescriptorSet) : Prop :=
  ∀ owner ∈ set.messages, ∀ field ∈ owner.fields, field.isMap = true →
    ∀ entry ∈ set.pool.message? field.target,
      (entry.fieldByNumber? Message.keyNumber).isSome = true ∧
        (entry.fieldByNumber? Message.valueNumber).isSome = true

/-- The entries of map fields are in place: no field holds one, and each has a key and a value. -/
structure EntriesInPlace (set : DescriptorSet) : Prop where
  held : ∀ owner ∈ set.messages, ∀ field ∈ owner.fields, ∀ message,
    set.pool.Holds field message → message.mapEntry = false
  paired : set.EntriesArePaired

instance (set : DescriptorSet) : Decidable set.EntriesArePaired :=
  inferInstanceAs (Decidable (∀ owner ∈ set.messages, ∀ field ∈ owner.fields,
    field.isMap = true → ∀ entry ∈ set.pool.message? field.target,
      (entry.fieldByNumber? Message.keyNumber).isSome = true ∧
        (entry.fieldByNumber? Message.valueNumber).isSome = true))

theorem EntriesInPlace.of_flat (hentries : set.EntriesStayInMaps) (hflat : set.MapsAreFlat)
    (hpaired : set.EntriesArePaired) : set.EntriesInPlace where
  held _ howner _ hfield _ hholds := mapEntry_of_holds hentries hflat howner hfield hholds
  paired := hpaired

end DescriptorSet

namespace CompilationUnit

variable {pool : Pool} {settings : Settings} {file : File} {names : List String}

/-- A message with a root and a schema is generated. -/
theorem exists_generate {message : Message} {root shape : Schema} (origin : Origin)
    (hroot : Synthesis.root pool names message.fullName = .ok root)
    (hshape : Shape.ofMessage pool names message = .ok shape) :
    ∃ type, generate pool names file origin message = .ok type := by
  have hnone : root.danglingReferences = [] := Synthesis.danglingReferences_root hroot
  simp [generate, hroot, hshape, hnone, Except.ok_bind]

theorem exists_generateAll {kept : List (Origin × Message)}
    (h : ∀ pair ∈ kept, ∃ type, generate pool names file pair.1 pair.2 = .ok type) :
    ∃ types, generateAll pool names file kept = .ok types := by
  induction kept with
  | nil => exact ⟨[], rfl⟩
  | cons pair rest ih =>
    obtain ⟨hpair, hrest⟩ := List.forall_mem_cons.mp h
    obtain ⟨first, hfirst⟩ := hpair
    obtain ⟨others, hothers⟩ := ih hrest
    exact ⟨first :: others, Except.bind_eq_ok.mpr ⟨first, hfirst,
      Except.bind_eq_ok.mpr ⟨others, hothers, rfl⟩⟩⟩

/-- A file whose selection succeeds is compiled if its messages are generated. -/
theorem exists_compile {selected : List Message} (hselected : selectionOf pool file = .ok selected)
    (h : ∃ types, generateAll pool (selected.map (·.fullName)) file
      (keptOf settings file selected) = .ok types) :
    ∃ result, compile pool settings file = .ok result := by
  obtain ⟨options, hoptions, hselect⟩ := Except.bind_eq_ok.mp hselected
  obtain ⟨types, htypes⟩ := h
  simp only [compile, hoptions, hselect, Except.ok_bind]
  split
  · exact ⟨none, rfl⟩
  · exact ⟨_, Except.bind_eq_ok.mpr ⟨types, htypes, rfl⟩⟩

end CompilationUnit

namespace Check

variable {set : DescriptorSet} {message : Message} {field : Field} {names : List String}
  {candidates selected : List Message}

/-! ### What is reported -/

theorem faultOf_eq_nil {α : Type} {result : Except SchemaError α} :
    faultOf result = [] ↔ ∃ a, result = .ok a := by
  cases result <;> simp [faultOf]

/-- Nothing is known of a fault as long as nothing is reported. -/
theorem isKnown_nil (e : SchemaError) : isKnown [] e = false := by
  unfold isKnown
  cases subject? e <;> rfl

/-- Nothing is reported if and only if there is no problem and all units are compiled. -/
theorem errors_eq_nil_iff {units : List (String × Except SchemaError (Option CompilationUnit))} :
    errors set units = [] ↔ problems set = [] ∧ ∀ unit ∈ units, ∃ result, unit.2 = .ok result := by
  simp only [errors, List.append_eq_nil_iff, List.map_eq_nil_iff]
  refine and_congr_right fun hnone => ?_
  rw [hnone]
  simp [isKnown_nil, List.flatMap_eq_nil_iff, ← faultOf_eq_nil]

theorem report_succeeds_iff : (report set).failure = none ↔
    errors set (CompilationUnit.compileAll set {}) = [] := by
  simp only [report]
  split
  · rename_i hnone
    simp [hnone, Outcome.ofLines]
  · rename_i hsome
    simpa [Outcome.ofLines] using hsome

/-- A message whose options and types are as they should be. -/
structure Clean (set : DescriptorSet) (message : Message) : Prop where
  readable : ∃ options, message.options = .ok options
  supported : message.unsupported = []
  options : ∀ field ∈ message.fields, ∃ options, field.options message = .ok options
  resolved : ∀ field ∈ message.fields, isResolved set field = true

theorem messageProblems_eq_nil_iff : messageProblems set message = [] ↔ Clean set message := by
  have hfields : message.fields.flatMap (fieldProblems set message) = [] ↔
      ∀ field ∈ message.fields,
        (∃ options, field.options message = .ok options) ∧ isResolved set field = true := by
    simp [List.flatMap_eq_nil_iff, fieldProblems, faultOf_eq_nil]
  rw [messageProblems, List.append_eq_nil_iff, List.append_eq_nil_iff, hfields, faultOf_eq_nil,
    List.map_eq_nil_iff]
  constructor
  · rintro ⟨⟨hreadable, hsupported⟩, hall⟩
    exact ⟨hreadable, hsupported, fun field h => (hall field h).1, fun field h => (hall field h).2⟩
  · intro h
    exact ⟨⟨h.readable, h.supported⟩, fun field hfield => ⟨h.options field hfield, h.resolved field hfield⟩⟩

theorem mem_messageNames (hmessage : message ∈ set.messages) :
    message.fullName ∈ set.messageNames := by
  obtain ⟨value, hvalue⟩ := Dictionary.exists_get?_ofList
    (List.mem_map_of_mem (f := fun m => (m.fullName, ())) hmessage)
  exact List.mem_map_of_mem (f := (·.1)) (Dictionary.mem_of_get? hvalue)

/-- Without problems, every message that is found by its name is clean. -/
theorem clean_of_problems (hunique : set.DeclaredOnce) (hdot : set.Undotted)
    (h : problems set = []) (hmessage : message ∈ set.messages) : Clean set message := by
  have hmessages := List.flatMap_eq_nil_iff.mp (List.append_eq_nil_iff.mp h).2
  refine messageProblems_eq_nil_iff.mp (hmessages message (List.mem_filterMap.mpr ?_))
  exact ⟨message.fullName, mem_messageNames hmessage, hunique.message?_fullName hdot hmessage⟩

/-! ### What follows for the other commands -/

/-- A set for which the other commands succeed. -/
structure Checked (set : DescriptorSet) : Prop where
  unique : set.DeclaredOnce
  undotted : set.Undotted
  maps : set.MapsHoldMessages
  entries : set.EntriesInPlace
  files : ∀ file ∈ set.files, ∃ options, file.options = .ok options
  clean : ∀ message ∈ set.messages, Clean set message

namespace Checked

/-- The type of a field with the kind of a message is found. -/
theorem exists_message? (h : Checked set) (hmessage : message ∈ set.messages)
    (hfield : field ∈ message.fields) (hkind : field.kind.isMessage = true) :
    ∃ found, set.pool.message? field.target = some found := by
  have hresolved := (h.clean message hmessage).resolved field hfield
  rw [isResolved, if_pos hkind] at hresolved
  exact Option.isSome_iff_exists.mp hresolved

theorem enumeration?_ne_none (h : Checked set) (hmessage : message ∈ set.messages)
    (hfield : field ∈ message.fields) (hkind : field.kind = .enum) :
    set.pool.enumeration? field.target ≠ none := by
  have hresolved := (h.clean message hmessage).resolved field hfield
  rw [isResolved, if_neg (by simp [hkind, FieldKind.isMessage]), if_pos hkind] at hresolved
  intro hnone
  rw [show set.enumeration? field.target = none from hnone] at hresolved
  cases hresolved

theorem resolves (h : Checked set) (hmessage : message ∈ set.messages)
    (hfield : field ∈ message.fields) (hkind : field.kind.isMessage = true) :
    set.pool.Resolves field := by
  obtain ⟨found, hfound⟩ := h.exists_message? hmessage hfield hkind
  rw [Pool.Resolves]
  split
  · rename_i hmap
    obtain ⟨hkey, hvalue⟩ := h.entries.paired message hmessage field hfield hmap found hfound
    obtain ⟨key, hkey⟩ := Option.isSome_iff_exists.mp hkey
    obtain ⟨value, hvalue⟩ := Option.isSome_iff_exists.mp hvalue
    exact ⟨found, key, value, hfound, hkey, hvalue, h.exists_message?
      (DescriptorSet.mem_messages_of_message? hfound) (List.mem_of_find?_eq_some hvalue)⟩
  · exact ⟨found, hfound⟩

theorem sound (h : Checked set) (hmessage : message ∈ set.messages) :
    Selection.Sound set.pool message := by
  refine ⟨fun field => h.resolves hmessage, fun other htakes => ?_⟩
  exact (h.clean other (Selection.mem_messages_of_needs hmessage htakes.1)).readable

/-- A selection from messages of the set succeeds. -/
theorem select (h : Checked set) (hcandidates : ∀ m ∈ candidates, m ∈ set.messages)
    (default : Bool) :
    ∃ selected, (Selection.select set.pool candidates default []).2 = .ok selected := by
  refine (Selection.select_ok_iff h.unique hcandidates default []).mpr
    ⟨fun message hmessage _ => (h.clean message (hcandidates message hmessage)).readable,
      fun message hselects => h.sound ?_⟩
  exact Selection.mem_messages_of_selects hcandidates hselects

/-- A message has a schema as long as every message that its fields hold is selected. -/
theorem ofMessage (h : Checked set) (hmessage : message ∈ set.messages)
    (hselected : ∀ field ∈ message.fields, ∀ other, set.pool.Holds field other →
      other.fullName ∈ names) : ∃ shape, Shape.ofMessage set.pool names message = .ok shape := by
  cases hresult : Shape.ofMessage set.pool names message with
  | ok shape => exact ⟨shape, rfl⟩
  | error e =>
    exfalso
    rcases Shape.error_of_ofMessage hresult with ⟨field, hfield, -⟩ | ⟨field, hfield, hfail⟩
    · simp [(h.clean message hmessage).supported] at hfield
    · rcases Shape.error_of_property? hfail with hfail | hlacks | ⟨other, hholds, hout, -⟩
      · obtain ⟨options, hoptions⟩ := (h.clean message hmessage).options field hfield
        rw [hoptions] at hfail
        cases hfail
      · rcases hlacks with ⟨hneeds, hfail⟩ | ⟨holder, inner, hinner, hkind, hnone, -⟩
        · exact hfail (h.resolves hmessage hfield
            (hneeds.elim (h.maps message hmessage field hfield) id))
        · rcases hinner with ⟨rfl, rfl⟩ | ⟨hholder, hinner⟩
          · exact h.enumeration?_ne_none hmessage hfield hkind hnone
          · exact h.enumeration?_ne_none (DescriptorSet.mem_messages_of_message? hholder) hinner
              hkind hnone
      · exact hout (hselected field hfield other hholds)

variable {default : Bool}

/-- What a selection leads to: every selected message has a schema. -/
theorem ofMessage_of_select (h : Checked set) (hcandidates : ∀ m ∈ candidates, m ∈ set.messages)
    (hselect : (Selection.select set.pool candidates default []).2 = .ok selected)
    (hmessage : message ∈ selected) :
    ∃ shape, Shape.ofMessage set.pool (selected.map (·.fullName)) message = .ok shape := by
  obtain ⟨-, hselects, -⟩ := Selection.mem_of_select_eq_ok h.unique hcandidates
    (Prod.ext rfl hselect : Selection.select set.pool candidates default [] = (_, .ok selected))
  have hmem : message ∈ set.messages :=
    Selection.mem_messages_of_selects hcandidates ((hselects message).mp hmessage)
  refine h.ofMessage hmem fun field hfield other hholds => List.mem_map_of_mem ?_
  exact Synthesis.mem_of_holds h.maps hselects hmessage hmem hfield hholds
    (h.entries.held message hmem field hfield other hholds)

/-- Every selected message has a root. -/
theorem root_of_select (h : Checked set) (hcandidates : ∀ m ∈ candidates, m ∈ set.messages)
    (hselect : (Selection.select set.pool candidates default []).2 = .ok selected)
    (hmessage : message ∈ selected) :
    ∃ root, Synthesis.root set.pool (selected.map (·.fullName)) message.fullName = .ok root := by
  cases hroot : Synthesis.root set.pool (selected.map (·.fullName)) message.fullName with
  | ok root => exact ⟨root, rfl⟩
  | error e =>
    obtain ⟨-, hselects, -⟩ := Selection.mem_of_select_eq_ok h.unique hcandidates
      (Prod.ext rfl hselect : Selection.select set.pool candidates default [] = (_, .ok selected))
    have hmem : ∀ message ∈ selected, message ∈ set.messages := fun message hmessage =>
      Selection.mem_messages_of_selects hcandidates ((hselects message).mp hmessage)
    obtain ⟨other, hother, hfail⟩ :=
      Synthesis.exists_selected_of_error_of_root h.unique h.undotted hmem hmessage hroot
    obtain ⟨shape, hshape⟩ := h.ofMessage_of_select hcandidates hselect hother
    rw [hfail] at hshape
    cases hshape

/-- Every file of the set is compiled, whatever the settings are. -/
theorem compile (h : Checked set) (settings : Settings) {file : File} (hfile : file ∈ set.files) :
    ∃ result, CompilationUnit.compile set.pool settings file = .ok result := by
  have hcandidates : ∀ message ∈ file.messages, message ∈ set.messages := fun _ =>
    DescriptorSet.mem_messages_of_file hfile
  obtain ⟨options, hoptions⟩ := h.files file hfile
  obtain ⟨selected, hselect⟩ := h.select hcandidates ((options.map (·.generate)).getD false)
  refine CompilationUnit.exists_compile (Except.bind_eq_ok.mpr ⟨options, hoptions, hselect⟩)
    (CompilationUnit.exists_generateAll fun pair hpair => ?_)
  have hmessage : pair.2 ∈ selected := (CompilationUnit.mem_keptOf.mp hpair).1
  obtain ⟨root, hroot⟩ := h.root_of_select hcandidates hselect hmessage
  obtain ⟨shape, hshape⟩ := h.ofMessage_of_select hcandidates hselect hmessage
  exact CompilationUnit.exists_generate pair.1 hroot hshape

/-- Every message that does not opt out has a document. -/
theorem document (h : Checked set) (hmessage : message ∈ set.messages)
    (hasks : Selection.Asks true message) :
    ∃ document, Showing.document set message.fullName = .ok document := by
  have hbare : Text.withoutDot message.fullName = message.fullName :=
    Text.withoutDot_of_no_dot (h.undotted message hmessage)
  have hcandidates : ∀ m ∈ [message], m ∈ set.messages := by simpa using hmessage
  obtain ⟨selected, hselect⟩ := h.select hcandidates true
  obtain ⟨-, hselects, -⟩ := Selection.mem_of_select_eq_ok h.unique hcandidates
    (Prod.ext rfl hselect : Selection.select set.pool [message] true [] = (_, .ok selected))
  have hself : message ∈ selected :=
    (hselects message).mpr (.start ⟨List.mem_singleton_self _, hasks⟩ (by simp))
  obtain ⟨root, hroot⟩ := h.root_of_select hcandidates hselect hself
  have hfound : set.message? message.fullName = some message :=
    h.unique.message?_fullName h.undotted hmessage
  have hname : ∃ other ∈ selected, other.fullName = message.fullName := ⟨message, hself, rfl⟩
  refine ⟨root, ?_⟩
  simp [Showing.document, hbare, hfound, hasks.1, hselect, hroot, hname, Except.ok_bind]

end Checked

/-- **What a check promises.** If a check of a set that has been loaded reports nothing, if the set
declares each message once and none with a dot in front, and if the entries of its map fields are in
place, then every target file compiles with any settings, and every message that does not opt out
has a document. -/
theorem compile_and_document_of_report {path : Path} {text : String} {format : Format}
    (hload : Input.read path text format = .ok set) (hunique : set.DeclaredOnce)
    (hdot : set.Undotted) (hentries : set.EntriesInPlace)
    (hreport : (report set).failure = none) :
    (∀ settings, ∀ file ∈ set.targetFiles, ∃ result,
      CompilationUnit.compile set.pool settings file = .ok result) ∧
    ∀ message ∈ set.messages, Selection.Asks true message →
      ∃ document, Showing.document set message.fullName = .ok document := by
  obtain ⟨hproblems, -⟩ := errors_eq_nil_iff.mp (report_succeeds_iff.mp hreport)
  have hchecked : Checked set :=
    { unique := hunique
      undotted := hdot
      maps := Input.mapsHoldMessages_of_read hload
      entries := hentries
      files := fun file hfile => faultOf_eq_nil.mp
        (List.flatMap_eq_nil_iff.mp (List.append_eq_nil_iff.mp hproblems).1 file hfile)
      clean := fun _ => clean_of_problems hunique hdot hproblems }
  exact ⟨fun settings file hfile => hchecked.compile settings (List.mem_of_mem_filter hfile),
    fun _ => hchecked.document⟩

/-- A book that lists others by whether they agree. -/
def bookText : String :=
"files:
- path: a
  options: {generate: true}
  messages:
  - name: Book
    fields:
    - name: by
      map: {key: bool, value: Book}
"

/-- A check of the book reports nothing, so it compiles whatever packages are shared, and it has a
document. -/
theorem compile_and_document_of_report_book : ∃ set,
    Input.read ⟨"a.yaml"⟩ bookText .manifest = .ok set ∧ set.DeclaredOnce ∧ set.Undotted ∧
    set.EntriesInPlace ∧ (report set).failure = none ∧ set.targetFiles ≠ [] ∧
    (∀ settings, ∀ file ∈ set.targetFiles, ∃ result,
      CompilationUnit.compile set.pool settings file = .ok result) ∧
    ∃ document, Showing.document set "Book" = .ok document := by
  obtain ⟨set, hload, hset⟩ : ∃ set, Input.read ⟨"a.yaml"⟩ bookText .manifest = .ok set ∧
      decide (set.DeclaredOnce ∧ set.Undotted ∧ set.EntriesStayInMaps ∧ set.MapsAreFlat ∧
        set.EntriesArePaired ∧ (report set).failure = none ∧ set.targetFiles.isEmpty = false ∧
        (set.messages.any fun message => message.fullName = "Book" ∧
          message.mapEntry = false ∧ message.overlay.isNone = true) = true) = true :=
    Except.exists_of_succeedsWith (by decide +kernel)
  obtain ⟨hunique, hdot, hstay, hflat, hpaired, hreport, htargets, hbook⟩ := of_decide_eq_true hset
  have hentries : set.EntriesInPlace := .of_flat hstay hflat hpaired
  obtain ⟨hcompile, hdocument⟩ :=
    compile_and_document_of_report hload hunique hdot hentries hreport
  obtain ⟨book, hmem, hbook⟩ := List.any_eq_true.mp hbook
  obtain ⟨hname, hentry, hoverlay⟩ := of_decide_eq_true hbook
  refine ⟨set, hload, hunique, hdot, hentries, hreport, List.isEmpty_eq_false_iff.mp htargets,
    hcompile, ?_⟩
  rw [← hname]
  exact hdocument book hmem ⟨hentry, .inr ⟨.inl (Option.isNone_iff_eq_none.mp hoverlay), rfl⟩⟩

/-- A message with a map field, and a field that names the entry of the map field. -/
def entryText : String :=
"files:
- path: a
  messages:
  - name: M
    fields:
    - name: l
      map: {key: bool, value: bool}
    - name: e
      type: LEntry
"

/-- **A check overlooks fields that name entries.** It reports nothing as long as their file is not
generated, but their message has no document, since an entry is never selected. -/
theorem not_document_of_report :
    ¬ ∀ (path : Path) (text : String) (format : Format) (set : DescriptorSet),
      Input.read path text format = .ok set → set.DeclaredOnce → set.Undotted →
      (report set).failure = none → ∀ message ∈ set.messages, Selection.Asks true message →
      ∃ document, Showing.document set message.fullName = .ok document := by
  intro h
  obtain ⟨set, hload, hset⟩ : ∃ set, Input.read ⟨"a.yaml"⟩ entryText .manifest = .ok set ∧
      decide (set.DeclaredOnce ∧ set.Undotted ∧ (report set).failure = none ∧
        (set.messages.any fun message => message.fullName = "M" ∧ message.mapEntry = false ∧
          message.overlay.isNone = true) = true ∧
        Except.succeedsWith (fun _ => true) (Showing.document set "M") = false) = true :=
    Except.exists_of_succeedsWith (by decide +kernel)
  obtain ⟨hunique, hdot, hreport, hmessage, hfails⟩ := of_decide_eq_true hset
  obtain ⟨message, hmem, hmessage⟩ := List.any_eq_true.mp hmessage
  obtain ⟨hname, hentry, hoverlay⟩ := of_decide_eq_true hmessage
  obtain ⟨document, hdocument⟩ := h _ _ _ set hload hunique hdot hreport message hmem
    ⟨hentry, .inr ⟨.inl (Option.isNone_iff_eq_none.mp hoverlay), rfl⟩⟩
  rw [hname] at hdocument
  rw [hdocument] at hfails
  cases hfails

end Check

end MessageSchema
