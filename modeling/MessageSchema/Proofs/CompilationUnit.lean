import MessageSchema.CompilationUnit
import MessageSchema.Proofs.Selection.Exactness
import MessageSchema.Proofs.Shape

/-!
# What a file is compiled to

The messages of a unit are those selected messages that the file declares or that are shared. Each
comes with its own schema and its own root, and each selected message has a callee.

## Main definitions

* `CompilationUnit.selectionOf`: the messages that are selected for the unit of a file.

## Main results

* `CompilationUnit.map_generateAll`: the types of a unit are its messages in order.
* `CompilationUnit.compile_eq_ok`: a unit in terms of the messages that are selected.
* `CompilationUnit.mem_types`: where a message of a unit comes from.
* `CompilationUnit.type_of_callee`: where a callee comes from.
-/

namespace MessageSchema

namespace CompilationUnit

variable {pool : Pool} {set : DescriptorSet} {settings : Settings} {file : File}
  {unit : CompilationUnit} {selected : List Message} {names : List String} {type : GeneratedType}

/-- The messages that are selected for the unit of a file. -/
def selectionOf (pool : Pool) (file : File) : Except SchemaError (List Message) := do
  let options ← file.options
  (Selection.select pool file.messages ((options.map (·.generate)).getD false) []).2

/-- The selected messages that get a schema, with their origins. -/
def keptOf (settings : Settings) (file : File) (selected : List Message) : List (Origin × Message) :=
  (selected.filter (originIn settings file · = some .own)).map (.own, ·) ++
    (selected.filter (originIn settings file · = some .shared)).map (.shared, ·)

theorem mem_keptOf {origin : Origin} {message : Message} :
    (origin, message) ∈ keptOf settings file selected ↔
      message ∈ selected ∧ originIn settings file message = some origin := by
  cases origin <;> simp [keptOf]

theorem generateAll_cons_eq_ok {kept : List (Origin × Message)} {e : Origin × Message}
    {types : List GeneratedType} (h : generateAll pool names file (e :: kept) = .ok types) :
    ∃ first others, generate pool names file e.1 e.2 = .ok first ∧
      generateAll pool names file kept = .ok others ∧ types = first :: others := by
  obtain ⟨first, hfirst, h⟩ := Except.bind_eq_ok.mp h
  obtain ⟨others, hothers, h⟩ := Except.bind_eq_ok.mp h
  exact ⟨first, others, hfirst, hothers, (Except.pure_eq_ok.mp h).symm⟩

theorem mem_generateAll {kept : List (Origin × Message)} {types : List GeneratedType}
    (h : generateAll pool names file kept = .ok types) :
    (∀ type ∈ types, ∃ e ∈ kept, generate pool names file e.1 e.2 = .ok type) ∧
      ∀ e ∈ kept, ∃ type ∈ types, generate pool names file e.1 e.2 = .ok type := by
  induction kept generalizing types with
  | nil =>
    cases h
    simp
  | cons e rest ih =>
    obtain ⟨first, others, hfirst, hothers, rfl⟩ := generateAll_cons_eq_ok h
    obtain ⟨hsound, hcomplete⟩ := ih hothers
    refine ⟨fun type htype => ?_, fun other hother => ?_⟩
    · rcases List.mem_cons.mp htype with rfl | htype
      · exact ⟨e, by simp, hfirst⟩
      · obtain ⟨other, hother, h⟩ := hsound type htype
        exact ⟨other, List.mem_cons_of_mem _ hother, h⟩
    · rcases List.mem_cons.mp hother with rfl | hother
      · exact ⟨first, by simp, hfirst⟩
      · obtain ⟨type, htype, h⟩ := hcomplete other hother
        exact ⟨type, List.mem_cons_of_mem _ htype, h⟩

/-- What each type takes from its message, the types take from the messages in order. -/
theorem map_generateAll {α : Type} {f : GeneratedType → α} {g : Origin × Message → α}
    {kept : List (Origin × Message)} {types : List GeneratedType}
    (hf : ∀ e type, generate pool names file e.1 e.2 = .ok type → f type = g e)
    (h : generateAll pool names file kept = .ok types) : types.map f = kept.map g := by
  induction kept generalizing types with
  | nil =>
    cases h
    rfl
  | cons e rest ih =>
    obtain ⟨first, others, hfirst, hothers, rfl⟩ := generateAll_cons_eq_ok h
    rw [List.map_cons, List.map_cons, hf e first hfirst, ih hothers]

/-- What is generated for a message. -/
theorem generate_eq_ok {origin : Origin} {message : Message}
    (h : generate pool names file origin message = .ok type) :
    type.fullName = message.fullName ∧ type.ident = identOf file origin message ∧
      type.origin = origin ∧ Shape.ofMessage pool names message = .ok type.shape ∧
      Synthesis.root pool names message.fullName = .ok type.root := by
  obtain ⟨root, hroot, h⟩ := Except.bind_eq_ok.mp h
  split at h
  · cases h
  · obtain ⟨shape, hshape, h⟩ := Except.bind_eq_ok.mp h
    obtain rfl := Except.pure_eq_ok.mp h
    exact ⟨rfl, rfl, rfl, hshape, hroot⟩

/-- A unit in terms of the messages that are selected. -/
theorem compile_eq_ok (h : compile pool settings file = .ok (some unit)) :
    ∃ selected, selectionOf pool file = .ok selected ∧
      generateAll pool (selected.map (·.fullName)) file (keptOf settings file selected) =
        .ok unit.types ∧
      unit.callees = Dictionary.ofList
        (selected.map fun message => (message.fullName, calleeOf pool settings file message)) ∧
      unit.source = file.path := by
  obtain ⟨options, hoptions, h⟩ := Except.bind_eq_ok.mp h
  obtain ⟨selected, hselected, h⟩ := Except.bind_eq_ok.mp h
  refine ⟨selected, Except.bind_eq_ok.mpr ⟨options, hoptions, hselected⟩, ?_⟩
  dsimp only at h
  split at h
  · simp at h
  · obtain ⟨types, htypes, h⟩ := Except.bind_eq_ok.mp h
    obtain rfl := Option.some.inj (Except.pure_eq_ok.mp h)
    exact ⟨htypes, rfl, rfl⟩

/-- What is selected for a file of a set is declared in the set, and each message once. -/
theorem mem_messages_of_selectionOf (hunique : set.DeclaredOnce) (hfile : file ∈ set.files)
    (h : selectionOf set.pool file = .ok selected) :
    (selected.map (·.fullName)).Nodup ∧ ∀ message ∈ selected, message ∈ set.messages := by
  obtain ⟨options, -, h⟩ := Except.bind_eq_ok.mp h
  have hcandidates : ∀ message ∈ file.messages, message ∈ set.messages := fun _ =>
    DescriptorSet.mem_messages_of_file hfile
  obtain ⟨hnodup, hselects, -⟩ := Selection.mem_of_select_eq_ok hunique hcandidates
    (Prod.ext rfl h : Selection.select set.pool file.messages _ [] = (_, .ok selected))
  exact ⟨hnodup, fun message hmem =>
    Selection.mem_messages_of_selects hcandidates ((hselects message).mp hmem)⟩

/-- Where a message of a unit comes from. -/
theorem mem_types (h : compile pool settings file = .ok (some unit))
    (hselected : selectionOf pool file = .ok selected) (htype : type ∈ unit.types) :
    ∃ message ∈ selected, ∃ origin, originIn settings file message = some origin ∧
      type.fullName = message.fullName ∧ type.ident = identOf file origin message ∧
      Shape.ofMessage pool (selected.map (·.fullName)) message = .ok type.shape ∧
      Synthesis.root pool (selected.map (·.fullName)) message.fullName = .ok type.root := by
  obtain ⟨found, hfound, htypes, -⟩ := compile_eq_ok h
  obtain rfl : selected = found := Except.ok.inj (hselected.symm.trans hfound)
  obtain ⟨⟨origin, message⟩, hkept, hgenerate⟩ := (mem_generateAll htypes).1 type htype
  obtain ⟨hmem, horigin⟩ := mem_keptOf.mp hkept
  obtain ⟨hname, hident, -, hshape, hroot⟩ := generate_eq_ok hgenerate
  exact ⟨message, hmem, origin, horigin, hname, hident, hshape, hroot⟩

/-- Where a callee comes from, if all selected messages belong to the file or are shared. -/
theorem type_of_callee (h : compile pool settings file = .ok (some unit))
    (hselected : selectionOf pool file = .ok selected)
    (horigin : ∀ message ∈ selected, originIn settings file message ≠ none) {name builder : String}
    (hcallee : unit.callees.get? name = some builder) :
    ∃ type ∈ unit.types, type.fullName = name ∧ builder = builderName type.ident := by
  obtain ⟨found, hfound, htypes, hcallees, -⟩ := compile_eq_ok h
  obtain rfl : selected = found := Except.ok.inj (hselected.symm.trans hfound)
  rw [hcallees] at hcallee
  have hmem := Dictionary.mem_of_mem_ofList (Dictionary.mem_of_get? hcallee)
  obtain ⟨message, hmessage, heq⟩ := List.mem_map.mp hmem
  obtain ⟨rfl, rfl⟩ := Prod.ext_iff.mp heq
  obtain ⟨origin, hsome⟩ := Option.ne_none_iff_exists'.mp (horigin message hmessage)
  obtain ⟨type, htype, hgenerate⟩ :=
    (mem_generateAll htypes).2 (origin, message) (mem_keptOf.mpr ⟨hmessage, hsome⟩)
  obtain ⟨hname, hident, -⟩ := generate_eq_ok hgenerate
  exact ⟨type, htype, hname, by simp [calleeOf, hsome, hident]⟩

/-- Every selected message has a callee. -/
theorem exists_callee (h : compile pool settings file = .ok (some unit))
    (hselected : selectionOf pool file = .ok selected) {message : Message}
    (hmessage : message ∈ selected) : ∃ builder, unit.callees.get? message.fullName = some builder := by
  obtain ⟨found, hfound, -, hcallees, -⟩ := compile_eq_ok h
  obtain rfl : selected = found := Except.ok.inj (hselected.symm.trans hfound)
  have hmem : (message.fullName, calleeOf pool settings file message) ∈
      selected.map fun message => (message.fullName, calleeOf pool settings file message) :=
    List.mem_map.mpr ⟨message, hmessage, rfl⟩
  rw [hcallees]
  exact Dictionary.exists_get?_ofList hmem

end CompilationUnit

end MessageSchema
