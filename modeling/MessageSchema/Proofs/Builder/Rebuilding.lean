import MessageSchema.Proofs.Builder.Module
import MessageSchema.Proofs.Builder.Running
import MessageSchema.Proofs.CompilationUnit
import MessageSchema.Proofs.Flat

/-!
# An emitted module rebuilds the documents of its unit

If the selected messages all belong to the file or are shared, the builders of the unit call nothing
but each other. The text of the module is read as these builders, and running them gives each message
of the unit the root that was compiled for it.

A message whose full name begins with a dot is an exception: its root is built from the message that
lookup finds without the dot, and its builder from the message itself.

## Main definitions

* `CompilationUnit.WellNamed`: the names in a unit can stand in a module.
* `Builder.RebuildsRoots`: running the module of a unit gives the roots of its messages.

## Main results

* `Builder.rebuildsRoots_of_compile`: an emitted module rebuilds the documents of its unit.
-/

namespace MessageSchema

open Program

variable {alphabet : Alphabet} {set : DescriptorSet} {settings : Settings} {file : File}
  {unit : CompilationUnit} {selected : List Message}

/-- The builders of a unit serve each other if all selected messages belong to the file or are
shared. -/
theorem CompilationUnit.serving_of_compile (hunique : set.DeclaredOnce) (hdot : set.Undotted)
    (hfile : file ∈ set.files) (hcompile : compile set.pool settings file = .ok (some unit))
    (hselected : selectionOf set.pool file = .ok selected)
    (horigin : ∀ message ∈ selected, originIn settings file message ≠ none)
    (hdistinct : (unit.types.map (·.ident)).Nodup) :
    unit.Serving set.pool (selected.map (·.fullName)) where
  shaped type htype := by
    obtain ⟨message, hmessage, _, _, hname, _, hshape, _⟩ := mem_types hcompile hselected htype
    have hmem := (mem_messages_of_selectionOf hunique hfile hselected).2 message hmessage
    exact Synthesis.shapeOf_eq_ok.mpr
      ⟨message, hname ▸ hunique.message?_fullName hdot hmem, hshape⟩
  flat type htype := by
    obtain ⟨_, _, _, _, _, _, hshape, _⟩ := mem_types hcompile hselected htype
    exact Shape.isFlat_ofMessage hshape
  known type htype ref href := by
    obtain ⟨_, _, _, _, _, _, hshape, _⟩ := mem_types hcompile hselected htype
    obtain ⟨_, _, target, _, rfl, htarget⟩ := Shape.ref_of_ofMessage hshape href
    obtain ⟨message, hmessage, hname⟩ := List.mem_map.mp htarget
    obtain ⟨builder, hbuilder⟩ := exists_callee hcompile hselected hmessage
    exact ⟨target.fullName, builder, rfl, hname ▸ hbuilder⟩
  callee _ _ := type_of_callee hcompile hselected horigin
  distinct := hdistinct

/-- What is asked of the names in a unit, so that they can stand in a module. -/
structure CompilationUnit.WellNamed (alphabet : Alphabet) (unit : CompilationUnit) : Prop where
  distinct : (unit.types.map (·.ident)).Nodup
  idents : ∀ type ∈ unit.types, alphabet.IsName type.ident
  source : OneLine unit.source
  names : ∀ type ∈ unit.types, OneLine type.fullName

instance (alphabet : Alphabet) (unit : CompilationUnit) : Decidable (unit.WellNamed alphabet) :=
  decidable_of_iff ((unit.types.map (·.ident)).Nodup ∧ (∀ type ∈ unit.types, alphabet.IsName type.ident) ∧
      OneLine unit.source ∧ ∀ type ∈ unit.types, OneLine type.fullName)
    ⟨fun ⟨distinct, idents, source, names⟩ => ⟨distinct, idents, source, names⟩,
      fun h => ⟨h.distinct, h.idents, h.source, h.names⟩⟩

namespace Builder

/-- The text of a module can be read, and running it gives the root of every message of its unit,
provided that calls may nest deeper than there are messages. -/
def RebuildsRoots (alphabet : Alphabet) (unit : CompilationUnit) (version : String)
    (generatedOn : Option ℤ) : Prop :=
  ∃ functions, readModule alphabet (moduleOf unit version generatedOn).print = some functions ∧
    ∀ type ∈ unit.types, ∀ depth, unit.types.length < depth →
      invoke functions depth (type.ident ++ "_json_schema") = some type.root

/-- The module of a unit is read as its functions, since all its builders are in it. -/
theorem readModule_of_compile (hcompile : CompilationUnit.compile set.pool settings file = .ok (some unit))
    (hselected : CompilationUnit.selectionOf set.pool file = .ok selected)
    (horigin : ∀ message ∈ selected, CompilationUnit.originIn settings file message ≠ none)
    (hnamed : unit.WellNamed alphabet) {version : String} (hversion : OneLine version)
    (generatedOn : Option ℤ) :
    readModule alphabet (moduleOf unit version generatedOn).print = some (programOf unit) := by
  refine readModule_moduleOf hnamed.source hversion
    (fun type htype => ⟨hnamed.names type htype, hnamed.idents type htype⟩)
    fun name builder hbuilder => ?_
  obtain ⟨type, htype, -, rfl⟩ :=
    CompilationUnit.type_of_callee hcompile hselected horigin hbuilder
  exact ⟨type, htype, rfl⟩

/-- **An emitted module rebuilds the documents of its unit.** -/
theorem rebuildsRoots_of_compile (alphabet : Alphabet) (hunique : set.DeclaredOnce)
    (hdot : set.Undotted) (hfile : file ∈ set.files)
    (hcompile : CompilationUnit.compile set.pool settings file = .ok (some unit))
    (hselected : CompilationUnit.selectionOf set.pool file = .ok selected)
    (horigin : ∀ message ∈ selected, CompilationUnit.originIn settings file message ≠ none)
    (hnamed : unit.WellNamed alphabet) (hversion : OneLine settings.version)
    (generatedOn : Option ℤ) : RebuildsRoots alphabet unit settings.version generatedOn := by
  have hserving : unit.Serving set.pool (selected.map (·.fullName)) :=
    CompilationUnit.serving_of_compile hunique hdot hfile hcompile hselected horigin hnamed.distinct
  refine ⟨programOf unit,
    readModule_of_compile hcompile hselected horigin hnamed hversion generatedOn,
    fun type htype depth hdepth => ?_⟩
  obtain ⟨_, _, _, _, hname, _, _, hroot⟩ := CompilationUnit.mem_types hcompile hselected htype
  exact invoke_root hserving htype (hname ▸ hroot) hdepth

/-- Folders and the notes in them, which refer to each other. -/
def folders : File where
  path := "tree.proto"
  package := "tree"
  overlay := some (.object [("generate", .boolean true)])
  messages := [
    { name := "Folder", fullName := "tree.Folder", file := "tree.proto",
      fields := [
        { name := "title", number := 1, kind := .string },
        { name := "parent", number := 2, kind := .message, typeName := some "tree.Folder",
          optional := true, overlay := some (.object [("title", .text "Parent")]) },
        { name := "notes", number := 3, kind := .message, cardinality := .list,
          typeName := some "tree.Note" }] },
    { name := "Note", fullName := "tree.Note", file := "tree.proto",
      fields := [
        { name := "folder", number := 1, kind := .message, typeName := some "tree.Folder" },
        { name := "stars", number := 2, kind := .int32 }] }]

/-- The file of folders alone. -/
def folderSet : DescriptorSet where
  files := [folders]
  targets := []

/-- A module with references in a circle, one of them under a title. -/
theorem rebuildsRoots_folders : ∃ unit selected,
    folderSet.DeclaredOnce ∧ folderSet.Undotted ∧ folders ∈ folderSet.files ∧
    CompilationUnit.compile folderSet.pool {} folders = .ok (some unit) ∧
    CompilationUnit.selectionOf folderSet.pool folders = .ok selected ∧
    (∀ message ∈ selected, CompilationUnit.originIn {} folders message ≠ none) ∧
    unit.types.map (·.ident) = ["Folder", "Note"] ∧ unit.WellNamed plain ∧
    OneLine ({} : Settings).version ∧ RebuildsRoots plain unit ({} : Settings).version (some 0) := by
  obtain ⟨selected, hselected, horigin⟩ :
      ∃ selected, CompilationUnit.selectionOf folderSet.pool folders = .ok selected ∧ decide
        (∀ message ∈ selected, CompilationUnit.originIn {} folders message ≠ none) = true :=
    Except.exists_of_succeedsWith (by decide +kernel)
  obtain ⟨result, hcompile, hresult⟩ :
      ∃ result, CompilationUnit.compile folderSet.pool {} folders = .ok result ∧
        (result.any fun unit => unit.types.map (·.ident) = ["Folder", "Note"] ∧
          unit.WellNamed plain) = true :=
    Except.exists_of_succeedsWith (by decide +kernel)
  obtain ⟨unit, rfl, hunit⟩ := (Option.any_eq_true _ result).mp hresult
  obtain ⟨hidents, hnamed⟩ := of_decide_eq_true hunit
  have hunique : folderSet.DeclaredOnce := by decide
  have hdot : folderSet.Undotted := by decide
  have hversion : OneLine ({} : Settings).version := by decide
  have hfile : folders ∈ folderSet.files := List.mem_singleton_self _
  have horigin := of_decide_eq_true horigin
  exact ⟨unit, selected, hunique, hdot, hfile, hcompile, hselected, horigin, hidents, hnamed, hversion,
    rebuildsRoots_of_compile plain hunique hdot hfile hcompile hselected horigin hnamed hversion (some 0)⟩

/-- A file with two messages of which the second has the name of the first behind a dot. -/
def dotted : File where
  path := "a.proto"
  package := "a"
  overlay := some (.object [("generate", .boolean true)])
  messages := [
    { name := "B", fullName := "a.B", file := "a.proto",
      fields := [{ name := "x", number := 1, kind := .string }] },
    { name := "B", fullName := ".a.B", file := "a.proto",
      fields := [{ name := "y", number := 1, kind := .string }] }]

/-- The file of dotted names alone. -/
def dottedSet : DescriptorSet where
  files := [dotted]
  targets := []

/-- The names of the properties of each schema in a root. -/
def propertyNames (root : Schema) : List (String × List String) :=
  root.defs.map fun (name, shape) => (name, shape.properties.map (·.1))

/-- Whether the builders of a unit give one of its messages a root with other properties. -/
def differs (unit : CompilationUnit) : Bool :=
  unit.types.any fun type =>
    (invoke (programOf unit) (unit.types.length + 1) (type.ident ++ "_json_schema")).map
      propertyNames != some (propertyNames type.root)

/-- **A message with a dot in front of its name is not rebuilt.** Its root is built from the other
message, and its builder from the message itself. -/
theorem not_rebuildsRoots_dotted :
    ¬ ∀ (set : DescriptorSet) (settings : Settings) (file : File) (unit : CompilationUnit)
      (selected : List Message), set.DeclaredOnce → file ∈ set.files →
      CompilationUnit.compile set.pool settings file = .ok (some unit) →
      CompilationUnit.selectionOf set.pool file = .ok selected →
      (∀ message ∈ selected, CompilationUnit.originIn settings file message ≠ none) →
      unit.WellNamed plain → OneLine settings.version → ∀ generatedOn,
      RebuildsRoots plain unit settings.version generatedOn := by
  intro h
  obtain ⟨selected, hselected, horigin⟩ :
      ∃ selected, CompilationUnit.selectionOf dottedSet.pool dotted = .ok selected ∧ decide
        (∀ message ∈ selected, CompilationUnit.originIn {} dotted message ≠ none) = true :=
    Except.exists_of_succeedsWith (by decide +kernel)
  obtain ⟨result, hcompile, hresult⟩ :
      ∃ result, CompilationUnit.compile dottedSet.pool {} dotted = .ok result ∧
        (result.any fun unit => unit.WellNamed plain ∧ differs unit) = true :=
    Except.exists_of_succeedsWith (by decide +kernel)
  obtain ⟨unit, rfl, hunit⟩ := (Option.any_eq_true _ result).mp hresult
  obtain ⟨hnamed, hdiffers⟩ := of_decide_eq_true hunit
  have horigin := of_decide_eq_true horigin
  have hversion : OneLine ({} : Settings).version := by decide
  have hread := readModule_of_compile hcompile hselected horigin hnamed hversion none
  obtain ⟨functions, hfunctions, hroots⟩ := h dottedSet {} dotted unit selected (by decide)
    (List.mem_singleton_self _) hcompile hselected horigin hnamed hversion none
  obtain rfl : programOf unit = functions := Option.some.inj (hread.symm.trans hfunctions)
  have hsame : differs unit = false := by
    refine List.any_eq_false.mpr fun type htype => ?_
    simp [hroots type htype _ (Nat.lt_succ_self _)]
  rw [hsame] at hdiffers
  cases hdiffers

end Builder

end MessageSchema
