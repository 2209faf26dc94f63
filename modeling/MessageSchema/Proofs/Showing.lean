import MessageSchema.Command.Show
import MessageSchema.Proofs.CompilationUnit
import MessageSchema.Proofs.Loading
import MessageSchema.Proofs.Synthesis.Narrowing

/-!
# A document is shown as it is generated

A message is shown from a selection that begins with it alone, and generated from the selection of a
whole file. Both lead to the same document: the document does not depend on the selection, and the
smaller selection still admits everything that the document refers to.

## Main definitions

* `Showing.Offered`: a message that does not opt out.

## Main results

* `Showing.document_of_compile`: a message of a unit has the document that the unit has for it.
* `Showing.report_eq_document`: what is shown of a message is what every unit writes for it.
-/

namespace MessageSchema

namespace Showing

variable {set : DescriptorSet} {settings : Settings} {file : File} {unit : CompilationUnit}
  {type : GeneratedType}

/-- A message does not opt out: it has no options, or they ask for a schema. -/
def Offered (message : Message) : Prop :=
  message.overlay = none ∨ message.overlay = some .null ∨
    ∃ options, message.options = .ok (some options) ∧ options.generate = true

theorem asks_of_offered {message : Message} (hentry : message.mapEntry = false)
    (h : Offered message) : Selection.Asks true message := by
  rcases h with h | h | h
  · exact ⟨hentry, .inr ⟨.inl h, rfl⟩⟩
  · exact ⟨hentry, .inr ⟨.inr h, rfl⟩⟩
  · exact ⟨hentry, .inl h⟩

/-- The document of a message that begins a selection is its root there. -/
theorem document_eq_ok {message : Message} {selected : List Message} {root : Schema}
    (hbare : Text.withoutDot message.fullName = message.fullName)
    (hfound : set.message? message.fullName = some message) (hentry : message.mapEntry = false)
    (hselect : (Selection.select set.pool [message] true []).2 = .ok selected)
    (hself : message ∈ selected)
    (hroot : Synthesis.root set.pool (selected.map (·.fullName)) message.fullName = .ok root) :
    document set message.fullName = .ok root := by
  have hname : ∃ other ∈ selected, other.fullName = message.fullName := ⟨message, hself, rfl⟩
  simp [document, hbare, hfound, hentry, hselect, hname, hroot, Except.ok_bind]

/-- A message of a unit is found by its name, and has the document that the unit has for it unless
it opts out. -/
theorem document_of_compile (hunique : set.DeclaredOnce) (hdot : set.Undotted)
    (hmaps : set.MapsHoldMessages) (hfile : file ∈ set.files)
    (hcompile : CompilationUnit.compile set.pool settings file = .ok (some unit))
    (htype : type ∈ unit.types) : ∃ message, set.message? type.fullName = some message ∧
      (Offered message → document set type.fullName = .ok type.root) := by
  obtain ⟨selected, hselected, -⟩ := CompilationUnit.compile_eq_ok hcompile
  obtain ⟨message, hmessage, -, -, hname, -, -, hroot⟩ :=
    CompilationUnit.mem_types hcompile hselected htype
  obtain ⟨-, hmem⟩ := CompilationUnit.mem_messages_of_selectionOf hunique hfile hselected
  have hfound := hunique.message?_fullName hdot (hmem message hmessage)
  rw [hname]
  refine ⟨message, hfound, fun hoffered => ?_⟩
  obtain ⟨options, -, hselect⟩ := Except.bind_eq_ok.mp hselected
  have hcandidates : ∀ m ∈ file.messages, m ∈ set.messages := fun _ =>
    DescriptorSet.mem_messages_of_file hfile
  obtain ⟨-, hselects, -⟩ := Selection.mem_of_select_eq_ok hunique hcandidates
    (Prod.ext rfl hselect : Selection.select set.pool file.messages _ [] = (_, .ok selected))
  have hentry := Synthesis.mapEntry_of_selects ((hselects message).mp hmessage)
  obtain ⟨narrow, hnarrow, hself, hroot⟩ := Synthesis.root_of_select hunique hdot hmaps hcandidates
    hselect hmessage (asks_of_offered hentry hoffered) hroot
  exact document_eq_ok (Text.withoutDot_of_no_dot (hdot message (hmem message hmessage))) hfound
    hentry hnarrow hself hroot

/-- Two units that both have a message have the same root for it. -/
theorem root_eq_of_compile {settings' : Settings} {file' : File} {unit' : CompilationUnit}
    {type' : GeneratedType}
    (hcompile : CompilationUnit.compile set.pool settings file = .ok (some unit))
    (htype : type ∈ unit.types)
    (hcompile' : CompilationUnit.compile set.pool settings' file' = .ok (some unit'))
    (htype' : type' ∈ unit'.types) (hname : type'.fullName = type.fullName) :
    type'.root = type.root := by
  obtain ⟨_, hselected, -⟩ := CompilationUnit.compile_eq_ok hcompile
  obtain ⟨_, hselected', -⟩ := CompilationUnit.compile_eq_ok hcompile'
  obtain ⟨message, -, -, -, hmessage, -, -, hroot⟩ :=
    CompilationUnit.mem_types hcompile hselected htype
  obtain ⟨message', -, -, -, hmessage', -, -, hroot'⟩ :=
    CompilationUnit.mem_types hcompile' hselected' htype'
  rw [← hmessage', hname, hmessage] at hroot'
  exact Synthesis.root_unique hroot' hroot

/-- **What is shown is what is generated.** In a set that has been loaded, and that declares each
message once and none with a dot in front, every message of a unit has one document in it. Unless the
message opts out, that document is printed when the message is shown. Every other unit that has a
document for the message has the same one. -/
theorem report_eq_document {path : Path} {text : String} {format : Format}
    (hload : Input.read path text format = .ok set) (hunique : set.DeclaredOnce)
    (hdot : set.Undotted) (hfile : file ∈ set.files)
    (hcompile : CompilationUnit.compile set.pool settings file = .ok (some unit))
    (htype : type ∈ unit.types) :
    ∃ message document, set.message? type.fullName = some message ∧
      (type.fullName ++ ".schema.json", document) ∈ unit.documents ∧
      (Offered message → report type.fullName false set = .ofLines [document]) ∧
      ∀ settings' file' unit', file' ∈ set.files →
        CompilationUnit.compile set.pool settings' file' = .ok (some unit') →
        ∀ other, (type.fullName ++ ".schema.json", other) ∈ unit'.documents → other = document := by
  obtain ⟨message, hfound, hdocument⟩ := document_of_compile hunique hdot
    (Input.mapsHoldMessages_of_read hload) hfile hcompile htype
  refine ⟨message, type.root.toJson.pretty, hfound, List.mem_map_of_mem htype, fun hoffered => ?_,
    fun settings' file' unit' hfile' hcompile' other hother => ?_⟩
  · rw [report, hdocument hoffered]
    rfl
  · obtain ⟨type', htype', heq⟩ := List.mem_map.mp hother
    obtain ⟨hname, rfl⟩ := Prod.ext_iff.mp heq
    rw [root_eq_of_compile hcompile htype hcompile' htype' (String.append_left_inj _ |>.mp hname)]

/-- A list, and a shelf that holds one. -/
def shelfText : String :=
"files:
- path: lib
  options: {generate: true}
  messages:
  - name: Node
    fields: [{name: next, type: Node}]
- path: app
  options: {generate: true}
  messages:
  - name: Shelf
    fields: [{name: top, type: Node}]
"

/-- Whether a file is compiled to a unit that has a message of a name. -/
def compilesWith (set : DescriptorSet) (settings : Settings) (fullName : String) (file : File) :
    Bool :=
  Except.succeedsWith (fun unit => unit.any (·.types.any (·.fullName = fullName)))
    (CompilationUnit.compile set.pool settings file)

theorem exists_unit_of_compilesWith {fullName : String}
    (h : compilesWith set settings fullName file = true) : ∃ unit : CompilationUnit,
      CompilationUnit.compile set.pool settings file = .ok (some unit) ∧
        ∃ type ∈ unit.types, type.fullName = fullName := by
  obtain ⟨result, hcompile, hresult⟩ := Except.exists_of_succeedsWith h
  obtain ⟨unit, rfl, htypes⟩ := Option.any_eq_true _ _ |>.mp hresult
  obtain ⟨type, htype, hname⟩ := List.any_eq_true.mp htypes
  exact ⟨unit, hcompile, type, htype, of_decide_eq_true hname⟩

/-- The list has one document, which is shown and which both files write: its own file, and the file
of the shelf when the list is shared. -/
theorem report_eq_document_shelf : ∃ set lib app document,
    Input.read ⟨"a.yaml"⟩ shelfText .manifest = .ok set ∧ set.DeclaredOnce ∧ set.Undotted ∧
    (∃ file ∈ set.files, file.path = "lib" ∧
      CompilationUnit.compile set.pool {} file = .ok (some lib)) ∧
    (∃ file ∈ set.files, file.path = "app" ∧
      CompilationUnit.compile set.pool { sharedPrefixes := ["Node"] } file = .ok (some app)) ∧
    ("Node.schema.json", document) ∈ lib.documents ∧
    ("Node.schema.json", document) ∈ app.documents ∧
    report "Node" false set = .ofLines [document] := by
  obtain ⟨set, hload, hset⟩ : ∃ set, Input.read ⟨"a.yaml"⟩ shelfText .manifest = .ok set ∧
      decide (set.DeclaredOnce ∧ set.Undotted ∧
        ((set.message? "Node").any (·.overlay.isNone)) = true ∧
        (set.files.any fun file => file.path = "lib" ∧
          compilesWith set {} "Node" file = true) = true ∧
        (set.files.any fun file => file.path = "app" ∧
          compilesWith set { sharedPrefixes := ["Node"] } "Node" file = true) = true) = true :=
    Except.exists_of_succeedsWith (by decide +kernel)
  obtain ⟨hunique, hdot, hnode, hlib, happ⟩ := of_decide_eq_true hset
  obtain ⟨libFile, hlibFile, hlib⟩ := List.any_eq_true.mp hlib
  obtain ⟨hlibPath, hlib⟩ := of_decide_eq_true hlib
  obtain ⟨lib, hlibUnit, type, htype, hname⟩ := exists_unit_of_compilesWith hlib
  obtain ⟨appFile, happFile, happ⟩ := List.any_eq_true.mp happ
  obtain ⟨happPath, happ⟩ := of_decide_eq_true happ
  obtain ⟨app, happUnit, type', htype', hname'⟩ := exists_unit_of_compilesWith happ
  obtain ⟨message, document, hfound, hdocument, hshown, hsame⟩ :=
    report_eq_document hload hunique hdot hlibFile hlibUnit htype
  rw [hname] at hfound hdocument hshown hsame
  rw [hfound, Option.any_some, Option.isNone_iff_eq_none] at hnode
  have hother : ("Node.schema.json", type'.root.toJson.pretty) ∈ app.documents :=
    List.mem_map.mpr ⟨type', htype', by rw [hname']; rfl⟩
  rw [hsame _ appFile app happFile happUnit _ hother] at hother
  exact ⟨set, lib, app, document, hload, hunique, hdot, ⟨libFile, hlibFile, hlibPath, hlibUnit⟩,
    ⟨appFile, happFile, happPath, happUnit⟩, hdocument, hother, hshown (.inl hnode)⟩

end Showing

end MessageSchema
