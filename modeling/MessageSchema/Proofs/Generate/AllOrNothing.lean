import MessageSchema.Proofs.Callees.Distinct
import MessageSchema.Proofs.Generate.Staging

/-!
# Writing a unit is all or nothing, up to the last step

A unit is written so that it ends up in its places or leaves nothing behind. That holds as long as
artifacts are staged. Once the first of them is moved to its place nothing brings back what it
replaced, and so a move that fails after another one leaves a part of the unit behind.

## Main definitions

* `Generate.AllOrNothing`: what the end of a run has to look like.
* `Generate.PartlyWritten`: a move fails after another artifact has changed its place.

## Main results

* `Generate.apart_of_compile`: the artifacts of a unit have places of their own.
* `Generate.allOrNothing_iff_not_partlyWritten`: the exact condition, whichever operations fail.
* `Generate.not_allOrNothing`: a directory in the place of the module of a unit.
-/

namespace MessageSchema

namespace Generate

variable {directory : Path} {options : Options} {unit : CompilationUnit} {memory : Memory}
  {all : List (String × String)}

/-! ### Places of their own -/

/-- A name of three characters or more is that of something. -/
theorem isName_of_length {name : String} (h : 3 ≤ name.length) : Path.IsName name := by
  rw [Path.IsName, Path.isTrivial, Bool.or_eq_false_iff]
  refine ⟨⟨?_, ?_⟩, ?_⟩
  · rw [String.isEmpty_eq_false_iff]
    rintro rfl
    exact absurd h (by decide)
  · rw [beq_eq_false_iff_ne]
    rintro rfl
    exact absurd h (by decide)
  · rintro rfl
    exact absurd h (by decide)

theorem finalPlace_eq {artifact : String × String} (hlong : 3 ≤ artifact.1.length)
    (hslash : '/' ∉ artifact.1.toList) :
    finalPlace memory directory artifact =
      directory.place memory.workingDirectory ++ [artifact.1] := by
  rw [finalPlace, finalOf, Path.place_join, Path.place_of_isName (isName_of_length hlong) hslash]

theorem stagingPlace_eq {artifact : String × String} (hslash : '/' ∉ artifact.1.toList) :
    stagingPlace memory directory artifact =
      directory.place memory.workingDirectory ++ [artifact.1 ++ ".tmp"] := by
  have hlong : 3 ≤ (artifact.1 ++ ".tmp").length := by
    rw [String.length_append, show ".tmp".length = 4 from rfl]
    omega
  rw [stagingPlace, temporaryOf, Path.place_join, Path.place_of_isName (isName_of_length hlong)]
  simpa using hslash

/-- Names without slashes, each once and none with the ending of a staged artifact, give places of
their own. -/
theorem apart_of_names (hnodup : (all.map (·.1)).Nodup)
    (hnames : ∀ a ∈ all, 3 ≤ a.1.length ∧ '/' ∉ a.1.toList ∧ a.1.toList.getLast? ≠ some 'p') :
    Apart memory directory all := by
  have hdistinct : all.Pairwise fun a b => a.1 ≠ b.1 := List.pairwise_map.mp hnodup
  refine ⟨hdistinct.imp_of_mem fun {a b} ha hb hne heq => ?_,
    hdistinct.imp_of_mem fun {a b} ha hb hne heq => ?_, fun a ha b hb heq => ?_⟩
  · rw [stagingPlace_eq (hnames a ha).2.1, stagingPlace_eq (hnames b hb).2.1] at heq
    have hname : a.1 ++ ".tmp" = b.1 ++ ".tmp" := by simpa using heq
    exact hne (String.append_left_inj _ |>.mp hname)
  · rw [finalPlace_eq (hnames a ha).1 (hnames a ha).2.1,
      finalPlace_eq (hnames b hb).1 (hnames b hb).2.1] at heq
    exact hne (by simpa using heq)
  · rw [stagingPlace_eq (hnames a ha).2.1, finalPlace_eq (hnames b hb).1 (hnames b hb).2.1] at heq
    have hname : a.1 ++ ".tmp" = b.1 := by simpa using heq
    refine (hnames b hb).2.2 ?_
    rw [← hname, String.toList_append, List.getLast?_append]
    rfl

theorem mem_artifacts {artifact : String × String} (h : artifact ∈ artifacts options unit) :
    (∃ type ∈ unit.types, artifact.1 = type.fullName ++ ".schema.json") ∨
      artifact.1 = unit.moduleFileName := by
  rw [artifacts, List.mem_append] at h
  rcases h with h | h
  · split_ifs at h
    · obtain ⟨type, htype, rfl⟩ := List.mem_map.mp h
      exact .inl ⟨type, htype, rfl⟩
    · cases h
  · split_ifs at h
    · exact .inr (by rw [List.mem_singleton.mp h])
    · cases h

/-- A unit whose names have no slash, each name once, has places of its own for its artifacts. -/
theorem apart_artifacts (hnodup : (unit.types.map (·.fullName)).Nodup)
    (hnames : ∀ type ∈ unit.types, '/' ∉ type.fullName.toList) (hstem : '/' ∉ unit.stem.toList) :
    Apart memory directory (artifacts options unit) := by
  refine apart_of_names ?_ fun a ha => ?_
  · have hdocuments : (unit.documents.map (·.1)).Nodup := by
      rw [CompilationUnit.documents, List.map_map]
      have hrename : ((unit.types.map (·.fullName)).map (· ++ ".schema.json")).Nodup :=
        hnodup.map fun _ _ heq => (String.append_left_inj _).mp heq
      rwa [List.map_map] at hrename
    have hmodule : unit.moduleFileName ∉ unit.documents.map (·.1) := by
      intro hmem
      obtain ⟨document, hdocument, hname⟩ := List.mem_map.mp hmem
      obtain ⟨type, -, rfl⟩ := List.mem_map.mp hdocument
      have hlast := congrArg (fun name : String => name.toList.getLast?) hname
      simp [CompilationUnit.moduleFileName] at hlast
    rw [artifacts, List.map_append]
    refine List.nodup_append.mpr ⟨?_, ?_, fun name hname other hother => ?_⟩
    · split_ifs
      · exact hdocuments
      · exact List.nodup_nil
    · split_ifs
      · exact List.nodup_singleton _
      · exact List.nodup_nil
    · split_ifs at hname hother
      · rw [List.mem_singleton.mp hother]
        rintro rfl
        exact hmodule hname
      all_goals simp at hname hother
  · rcases mem_artifacts ha with ⟨type, htype, hname⟩ | hname
    · rw [hname]
      refine ⟨?_, by simpa using hnames type htype, by simp⟩
      rw [String.length_append, show ".schema.json".length = 12 from rfl]
      omega
    · rw [hname, CompilationUnit.moduleFileName, CompilationUnit.moduleName]
      refine ⟨?_, by simpa using hstem, by simp⟩
      rw [String.length_append, show ".rs".length = 3 from rfl]
      omega

/-- The names of what is generated are those of the messages. -/
theorem fullNames_generateAll {pool : Pool} {names : List String} {file : File}
    {kept : List (Origin × Message)} {types : List GeneratedType}
    (h : CompilationUnit.generateAll pool names file kept = .ok types) :
    types.map (·.fullName) = kept.map fun e => e.2.fullName :=
  CompilationUnit.map_generateAll (fun _ _ h => (CompilationUnit.generate_eq_ok h).1) h

/-- The artifacts of a unit that is compiled have places of their own if no name has a slash. -/
theorem apart_of_compile {set : DescriptorSet} {settings : Settings} {file : File}
    (hunique : set.DeclaredOnce) (hfile : file ∈ set.files)
    (hcompile : CompilationUnit.compile set.pool settings file = .ok (some unit))
    (hnames : ∀ message ∈ set.messages, '/' ∉ message.fullName.toList)
    (hstem : '/' ∉ unit.stem.toList) : Apart memory directory (artifacts options unit) := by
  obtain ⟨selected, hselected, htypes, -⟩ := CompilationUnit.compile_eq_ok hcompile
  obtain ⟨hnodup, hdeclared⟩ := CompilationUnit.mem_messages_of_selectionOf hunique hfile hselected
  have hfullNames := fullNames_generateAll htypes
  refine apart_artifacts ?_ (fun type htype => ?_) hstem
  · rw [hfullNames]
    refine (CompilationUnit.nodup_keptOf hnodup.of_map).map_on ?_
    rintro ⟨origin, message⟩ hmessage ⟨origin', other⟩ hother heq
    obtain ⟨hmem, horigin⟩ := CompilationUnit.mem_keptOf.mp hmessage
    obtain ⟨hmem', horigin'⟩ := CompilationUnit.mem_keptOf.mp hother
    obtain rfl : message = other := List.inj_on_of_nodup_map hnodup hmem hmem' heq
    obtain rfl : origin = origin' := Option.some.inj (horigin.symm.trans horigin')
    rfl
  · obtain ⟨message, hmem, -, -, hname, -⟩ := CompilationUnit.mem_types hcompile hselected htype
    rw [hname]
    exact hnames message (hdeclared message hmem)

/-! ### All or nothing -/

/-- The artifacts that are staged by the time of an error. -/
def WriteError.staged (directory : Path) (all : List (String × String)) :
    WriteError → List (String × String)
  | .directory _ _ => []
  | .stage path _ => all.takeWhile (temporaryOf directory · ≠ path)
  | .place _ _ => all

/-- After a success each artifact holds its text and none is staged. After an error each place of an
artifact is as it was, and what was staged is gone. -/
structure AllOrNothing (before : Memory) (directory : Path) (all : List (String × String))
    (result : Except WriteError (List Path)) (after : Memory) : Prop where
  written : ∀ paths, result = .ok paths → ∀ a ∈ all,
    after.content? (finalPlace before directory a) = some a.2 ∧
      after.view (stagingPlace before directory a) = none
  unchanged : ∀ error, result = .error error → ∀ a ∈ all,
    after.content? (finalPlace before directory a) =
      before.content? (finalPlace before directory a)
  removed : ∀ error, result = .error error → ∀ a ∈ error.staged directory all,
    after.view (stagingPlace before directory a) = none

/-- An artifact is not moved to its place when another one has already changed the place it was
moved to. -/
def PartlyWritten (before : Memory) (directory : Path) (all : List (String × String))
    (result : Except WriteError (List Path)) : Prop :=
  ∃ path error, result = .error (.place path error) ∧
    ∃ a ∈ all.takeWhile (finalOf directory · ≠ path),
      before.content? (finalPlace before directory a) ≠ some a.2

theorem takeWhile_ne {α β : Type} [DecidableEq β] (f : α → β) {done behind : List α} {a : α}
    (h : ∀ b ∈ done, f b ≠ f a) : (done ++ a :: behind).takeWhile (f · ≠ f a) = done := by
  rw [List.takeWhile_append_of_pos (by simpa using h), List.takeWhile_cons_of_neg (by simp),
    List.append_nil]

/-- The artifacts in front of one that is not staged are told by their temporary paths. -/
theorem Apart.takeWhile_staged (h : Apart memory directory all) {done behind : List (String × String)}
    {failing : String × String} (hsplit : all = done ++ failing :: behind) :
    all.takeWhile (temporaryOf directory · ≠ temporaryOf directory failing) = done := by
  obtain ⟨-, -, hstaging⟩ := List.pairwise_append.mp (hsplit ▸ h.staging)
  rw [hsplit, takeWhile_ne]
  intro b hb heq
  refine hstaging b hb failing List.mem_cons_self ?_
  rw [stagingPlace, stagingPlace, heq]

/-- The artifacts in front of one that is not moved are told by their paths. -/
theorem Apart.takeWhile_moved (h : Apart memory directory all) {done behind : List (String × String)}
    {failing : String × String} (hsplit : all = done ++ failing :: behind) :
    all.takeWhile (finalOf directory · ≠ finalOf directory failing) = done := by
  obtain ⟨-, -, hfinal⟩ := List.pairwise_append.mp (hsplit ▸ h.final)
  rw [hsplit, takeWhile_ne]
  intro b hb heq
  refine hfinal b hb failing List.mem_cons_self ?_
  rw [finalPlace, finalPlace, heq]

theorem finalPlace_of_keeps {after : Memory} (h : memory.Keeps after) (a : String × String) :
    finalPlace after directory a = finalPlace memory directory a := by
  rw [finalPlace, finalPlace, h.workingDirectory]

theorem stagingPlace_of_keeps {after : Memory} (h : memory.Keeps after) (a : String × String) :
    stagingPlace after directory a = stagingPlace memory directory a := by
  rw [stagingPlace, stagingPlace, h.workingDirectory]

/-- Where an artifact is not moved, what was there before the directories were created is there. -/
theorem Layout.content?_finalPlace {before base after : Memory} {moved gone : List (String × String)}
    (h : Layout base directory [] moved gone after) (hgrows : before.Grows base)
    (hapart : Apart base directory all) (hgone : ∀ a ∈ gone, a ∈ all) {a : String × String}
    (ha : a ∈ all) (hmoved : ∀ b ∈ moved, finalPlace base directory a ≠ finalPlace base directory b) :
    after.content? (finalPlace before directory a) =
      before.content? (finalPlace before directory a) := by
  rw [← finalPlace_of_keeps hgrows.keeps, ← hgrows.content?]
  refine Memory.content?_eq_of_view_eq (h.others _ (fun b hb => ?_) hmoved)
  exact (hapart.crossed b (hgone b hb) a ha).symm

/-- A failure is all or nothing if no place of an artifact has changed and what was staged is gone. -/
theorem AllOrNothing.of_error {before after : Memory} {all : List (String × String)}
    {error : WriteError}
    (hunchanged : ∀ a ∈ all, after.content? (finalPlace before directory a) =
      before.content? (finalPlace before directory a))
    (hremoved : ∀ a ∈ error.staged directory all,
      after.view (stagingPlace before directory a) = none) :
    AllOrNothing before directory all (.error error) after := by
  refine ⟨fun _ hok => ?_, ?_, ?_⟩
  · cases hok
  · rintro _ ⟨⟩
    exact hunchanged
  · rintro _ ⟨⟩
    exact hremoved

/-- However a run ends, it is all or nothing exactly if it does not leave a part behind. -/
theorem Outcome.allOrNothing_iff {before after : Memory} {result : Except WriteError (List Path)}
    (h : Outcome before directory all result after) (hapart : Apart before directory all) :
    AllOrNothing before directory all result after ↔
      ¬ PartlyWritten before directory all result := by
  cases h with
  | noDirectory error hgrows =>
    refine iff_of_true (.of_error (fun a _ => hgrows.content? _) fun a ha => ?_) ?_
    · cases ha
    · rintro ⟨_, _, ⟨⟩, -⟩
  | @notStaged base _ done behind failing error hgrows hsplit hlayout =>
    have hapart := hapart.of_keeps hgrows.keeps
    have hdone : ∀ a ∈ done, a ∈ all := fun a ha => hsplit ▸ List.mem_append_left _ ha
    refine iff_of_true (.of_error (fun a ha => ?_) fun a ha => ?_) ?_
    · exact hlayout.content?_finalPlace hgrows hapart hdone ha (by simp)
    · rw [WriteError.staged, hapart.takeWhile_staged hsplit] at ha
      rw [← stagingPlace_of_keeps hgrows.keeps]
      exact hlayout.isGone a ha
    · rintro ⟨_, _, ⟨⟩, -⟩
  | @notMoved base _ done behind failing error hgrows hsplit hlayout =>
    have hapart := hapart.of_keeps hgrows.keeps
    obtain ⟨-, -, hfinal⟩ := List.pairwise_append.mp (hsplit ▸ hapart.final)
    have hmoved := hapart.takeWhile_moved hsplit
    have htext : ∀ a ∈ done, after.content? (finalPlace before directory a) = some a.2 := by
      intro a ha
      rw [← finalPlace_of_keeps hgrows.keeps]
      exact Memory.content?_of_file (hlayout.isMoved a ha)
    constructor
    · rintro h ⟨_, _, ⟨⟩, a, ha, hchanged⟩
      rw [hmoved] at ha
      refine hchanged ?_
      rw [← h.unchanged _ rfl a (hsplit ▸ List.mem_append_left _ ha), htext a ha]
    · intro hunchanged
      refine .of_error (fun a ha => ?_) fun a ha => ?_
      · by_cases hmem : a ∈ done
        · rw [htext a hmem]
          by_contra hne
          exact hunchanged ⟨_, _, rfl, a, hmoved.symm ▸ hmem, Ne.symm hne⟩
        · refine hlayout.content?_finalPlace hgrows hapart (fun b hb => hb) ha fun b hb => ?_
          rw [hsplit] at ha
          exact (hfinal b hb a ((List.mem_append.mp ha).resolve_left hmem)).symm
      · rw [← stagingPlace_of_keeps hgrows.keeps]
        exact hlayout.isGone a ha
  | written hgrows hlayout =>
    refine iff_of_true ⟨fun _ _ a ha => ?_, fun _ herror => ?_, fun _ herror => ?_⟩ ?_
    · rw [← finalPlace_of_keeps hgrows.keeps, ← stagingPlace_of_keeps hgrows.keeps]
      exact ⟨Memory.content?_of_file (hlayout.isMoved a ha), hlayout.isGone a ha⟩
    · cases herror
    · cases herror
    · rintro ⟨_, _, ⟨⟩, -⟩

variable {σ : Type} {disk : Disk (StateM σ)} {view : σ → Memory}

/-- **When writing a unit is all or nothing.** Whichever operations fail, writing a unit whose
artifacts have places of their own writes all of it or changes nothing, unless a move fails after
another artifact has changed the place it was moved to. -/
theorem allOrNothing_iff_not_partlyWritten (hdisk : disk.Atomic view) (options : Options)
    (unit : CompilationUnit) (state : σ)
    (hapart : Apart (view state) (unitDirectory options.output unit.source)
      (artifacts options unit)) :
    AllOrNothing (view state) (unitDirectory options.output unit.source) (artifacts options unit)
        (writeUnit disk options unit state).1 (view (writeUnit disk options unit state).2) ↔
      ¬ PartlyWritten (view state) (unitDirectory options.output unit.source)
        (artifacts options unit) (writeUnit disk options unit state).1 :=
  (outcome_writeUnit hdisk options unit state hapart).allOrNothing_iff hapart

/-- A file with one message. -/
def noteFile : File where
  path := "note.proto"
  package := "desk"
  overlay := some (.object [("generate", .boolean true)])
  messages := [{ name := "Note", fullName := "desk.Note", file := "note.proto" }]

/-- The file by itself. -/
def noteSet : DescriptorSet where
  files := [noteFile]
  targets := []

/-- No files at all. -/
def emptyMemory : Memory where
  root := .directory []
  workingDirectory := []

/-- A fault in the third change, which is that the second artifact is staged. -/
def thirdFault (count : ℕ) : Option DiskError :=
  if count = 2 then some (.other "No space left on device (os error 28)") else none

/-- Whether a run ends with an artifact that is not staged. -/
def isNotStaged : Except WriteError (List Path) → Bool
  | .error (.stage _ _) => true
  | _ => false

theorem not_partlyWritten_of_isNotStaged {before : Memory} {result : Except WriteError (List Path)}
    (h : isNotStaged result = true) : ¬ PartlyWritten before directory all result := by
  rintro ⟨path, error, rfl, -⟩
  cases h

/-- The document of a unit is staged and its module is not. -/
theorem allOrNothing_iff_not_partlyWritten_note : ∃ unit,
    CompilationUnit.compile noteSet.pool {} noteFile = .ok (some unit) ∧
    (Memory.faultyDisk thirdFault).Atomic Prod.fst ∧
    Apart emptyMemory (unitDirectory ⟨"gen"⟩ unit.source) (artifacts {} unit) ∧
    (artifacts {} unit).map (·.1) = ["desk.Note.schema.json", "note_jsonschema.rs"] ∧
    isNotStaged (writeUnit (Memory.faultyDisk thirdFault) {} unit (emptyMemory, 0)).1 = true ∧
    AllOrNothing emptyMemory (unitDirectory ⟨"gen"⟩ unit.source) (artifacts {} unit)
      (writeUnit (Memory.faultyDisk thirdFault) {} unit (emptyMemory, 0)).1
      (writeUnit (Memory.faultyDisk thirdFault) {} unit (emptyMemory, 0)).2.1 := by
  obtain ⟨result, hcompile, hresult⟩ :
      ∃ result, CompilationUnit.compile noteSet.pool {} noteFile = .ok result ∧
        (result.any fun unit => decide ('/' ∉ unit.stem.toList) &&
          ((artifacts {} unit).map (·.1) == ["desk.Note.schema.json", "note_jsonschema.rs"]) &&
          isNotStaged (writeUnit (Memory.faultyDisk thirdFault) {} unit (emptyMemory, 0)).1) = true :=
    Except.exists_of_succeedsWith (by decide +kernel)
  obtain ⟨unit, rfl, hunit⟩ := (Option.any_eq_true _ result).mp hresult
  rw [Bool.and_eq_true, Bool.and_eq_true, decide_eq_true_eq, beq_iff_eq] at hunit
  obtain ⟨⟨hstem, hartifacts⟩, hrun⟩ := hunit
  have hdisk := Memory.atomic_faultyDisk thirdFault
  have hapart : Apart emptyMemory (unitDirectory ⟨"gen"⟩ unit.source) (artifacts {} unit) :=
    apart_of_compile (by decide) List.mem_cons_self hcompile (by decide) hstem
  refine ⟨unit, hcompile, hdisk, hapart, hartifacts, hrun, ?_⟩
  exact (allOrNothing_iff_not_partlyWritten hdisk {} unit (emptyMemory, 0) hapart).mpr
    (not_partlyWritten_of_isNotStaged hrun)

/-- A directory where the module of the file belongs. -/
def blockedMemory : Memory where
  root := .directory [("gen", .directory [("note_jsonschema.rs", .directory [])])]
  workingDirectory := []

/-- A directory in the place of the module keeps it from being moved there, and the document stays
in its place. -/
theorem not_allOrNothing : ¬ ∀ (settings : Settings) (set : DescriptorSet) (file : File)
    (unit : CompilationUnit) (options : Options) (memory : Memory), set.DeclaredOnce →
    file ∈ set.files → CompilationUnit.compile set.pool settings file = .ok (some unit) →
    AllOrNothing memory (unitDirectory options.output unit.source) (artifacts options unit)
      (writeUnit Memory.disk options unit memory).1 (writeUnit Memory.disk options unit memory).2 := by
  intro hall
  obtain ⟨result, hcompile, hresult⟩ :
      ∃ result, CompilationUnit.compile noteSet.pool {} noteFile = .ok result ∧
        (result.any fun unit => !(writeUnit Memory.disk {} unit blockedMemory).1.toBool &&
          (artifacts {} unit).any fun a => decide
            ((writeUnit Memory.disk {} unit blockedMemory).2.content?
                (finalPlace blockedMemory (unitDirectory ⟨"gen"⟩ unit.source) a) ≠
              blockedMemory.content?
                (finalPlace blockedMemory (unitDirectory ⟨"gen"⟩ unit.source) a))) = true :=
    Except.exists_of_succeedsWith (by decide +kernel)
  obtain ⟨unit, rfl, hunit⟩ := (Option.any_eq_true _ result).mp hresult
  rw [Bool.and_eq_true, List.any_eq_true] at hunit
  obtain ⟨hfails, a, ha, hchanged⟩ := hunit
  have h := hall {} noteSet noteFile unit {} blockedMemory (by decide) List.mem_cons_self hcompile
  cases hrun : (writeUnit Memory.disk {} unit blockedMemory).1 with
  | ok paths =>
    rw [hrun] at hfails
    cases hfails
  | error error => exact of_decide_eq_true hchanged (h.unchanged error hrun a ha)

end Generate

end MessageSchema
