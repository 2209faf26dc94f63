import MessageSchema.Proofs.Generate.Reading
import MessageSchema.Proofs.Generate.Success
import MessageSchema.Proofs.Showing

/-!
# What is left of the units of a run

The units of all inputs are written into one tree, under paths that come from their sources and from
the names of their messages. Nothing keeps two units apart: the last text that is written at a place
stays. So a run leaves every unit as it was written exactly if all texts for one place are the same,
which is so for the documents that several units of one input have of a shared message.

The report does not tell what was written. A log keeps the units beside what is reported of them.

## Main definitions

* `Generate.Logged`: what is reported of a unit, with the unit.
* `Generate.log`: a run that is logged.
* `Generate.Logs`: an action writes what it logs.
* `Generate.Logged.IsKept`: the files in the report of a unit hold what the unit has for them.

## Main results

* `Generate.generate_eq_log`: a run reports what is logged.
* `Generate.Logs.mapM`, `Generate.wrote_log`: what a loop writes, and a whole run.
* `Generate.agreeOnDocuments_logInput`: units of one input have the same documents.
* `Generate.isKept_iff_agree`: the exact condition under which every unit is kept.
* `Generate.not_isKept`: two inputs with a file of the same path.
-/

namespace MessageSchema

namespace Generate

/-! ### The log of a run -/

/-- What is reported, with the unit that it is reported of, if there is one. -/
structure Logged where
  unit? : Option CompilationUnit
  report : UnitReport

section Log

variable {m : Type → Type} [Monad m]

/-- Writes what a file is compiled to, and logs it. -/
def logResult (disk : Disk m) (options : Options) (input source : String)
    (result : Except SchemaError (Option CompilationUnit)) : m Logged := do
  return ⟨result.toOption.join, input, source, ← writeResult disk options result⟩

/-- Generates the files of an input, and logs them. -/
def logInput (disk : Disk m) (options : Options) (path : Path) : m (List Logged) := do
  match ← Input.load disk path with
  | .error error => return [⟨none, path.text, path.text, .failed error.message⟩]
  | .ok set => (CompilationUnit.compileAll set options.settings).mapM fun compiled =>
      logResult disk options path.text compiled.1 compiled.2

/-- Generates the files of inputs. There is a log of each of them. -/
def log (disk : Disk m) (inputs : List String) (options : Options) :
    m (Except ArgumentError (List (List Logged))) := do
  match ← expandInputs disk inputs with
  | .error error => return .error error
  | .ok paths => return .ok (← paths.mapM (logInput disk options))

/-- The outcome of a run that is logged. -/
def outcomeOf (options : Options) :
    Except ArgumentError (List (List Logged)) → MessageSchema.Outcome
  | .error error => .failed error.message
  | .ok logs => (Report.mk options.output (logs.flatten.map Logged.report)).outcome options.asJson

variable [LawfulMonad m]

theorem map_mapM {α β γ : Type} (g : β → γ) (f : α → m β) (as : List α) :
    List.map g <$> as.mapM f = as.mapM fun a => g <$> f a := by
  induction as with
  | nil => simp
  | cons a as ih => simp [List.mapM_cons, ← ih]

/-- What is reported of an input is what is logged. -/
theorem generateInput_eq (disk : Disk m) (options : Options) (path : Path) :
    generateInput disk options path = List.map Logged.report <$> logInput disk options path := by
  rw [generateInput, logInput, map_bind]
  congr 1
  funext result
  cases result with
  | error error => simp
  | ok set =>
    dsimp only
    rw [map_mapM]
    congr 1
    funext ⟨source, result⟩
    simp [logResult]

/-- A run reports what is logged. -/
theorem generate_eq_log (disk : Disk m) (inputs : List String) (options : Options) :
    Command.generate disk inputs options = outcomeOf options <$> log disk inputs options := by
  rw [Command.generate, log, map_bind]
  congr 1
  funext result
  cases result with
  | error error => simp [outcomeOf]
  | ok paths =>
    have hinputs : paths.mapM (generateInput disk options) =
        List.map (List.map Logged.report) <$> paths.mapM (logInput disk options) := by
      rw [map_mapM]
      exact congrArg (paths.mapM ·) (funext (generateInput_eq disk options))
    simp [hinputs, outcomeOf, List.map_flatten]

end Log

/-! ### What is written -/

open Disk (run_mapM_cons exists_of_mem_mapM reads_load reads_expandInputs)

variable {options : Options} {start : List String} {entry : Logged}

/-- Whether the unit of an entry, if it has one, is written. -/
def Logged.isWritten (entry : Logged) : Bool :=
  match entry.unit?, entry.report.status with
  | none, _ | some _, .generated _ => true
  | some _, _ => false

/-- The places of the artifacts of the unit of an entry, with their texts. -/
def Logged.placed (start : List String) (options : Options) (entry : Logged) :
    List (List String × String) :=
  entry.unit?.elim [] (Generate.placed start options)

/-- The report of an entry lists the artifacts of its unit. -/
def Logged.Lists (options : Options) (entry : Logged) : Prop :=
  ∀ files, entry.report.status = .generated files → ∃ unit, entry.unit? = some unit ∧
    files = (artifacts options unit).map (finalOf (unitDirectory options.output unit.source))

/-- A unit is logged as it is written. -/
theorem logResult_unit (input source : String) (unit : CompilationUnit) (memory : Memory) :
    logResult Memory.disk options input source (.ok (some unit)) memory =
      match writeUnit Memory.disk options unit memory with
      | (.ok files, after) => (⟨some unit, input, source, .generated files⟩, after)
      | (.error error, after) => (⟨some unit, input, source, .failed error.message⟩, after) := by
  refine (run_bind (writeResult Memory.disk options (.ok (some unit))) _ memory).trans ?_
  rw [writeResult, run_bind]
  cases writeUnit Memory.disk options unit memory with
  | mk result after => cases result <;> rfl

/-- What is logged of a file: the report lists the artifacts of its unit, and these are written if
nothing fails. -/
theorem lists_and_wrote_logResult (input source : String)
    (result : Except SchemaError (Option CompilationUnit)) (memory : Memory) :
    (logResult Memory.disk options input source result memory).1.Lists options ∧
      ((logResult Memory.disk options input source result memory).1.isWritten = true →
        Wrote memory ((logResult Memory.disk options input source result memory).1.placed
            memory.workingDirectory options)
          (logResult Memory.disk options input source result memory).2) := by
  cases result with
  | error error => exact ⟨nofun, fun _ => .refl memory⟩
  | ok unit? =>
    cases unit? with
    | none => exact ⟨nofun, fun _ => .refl memory⟩
    | some unit =>
      rw [logResult_unit]
      cases hrun : writeUnit Memory.disk options unit memory with
      | mk result after =>
        cases result with
        | error error => exact ⟨nofun, nofun⟩
        | ok files =>
          obtain ⟨hfiles, hwrote⟩ := wrote_of_writeUnit Memory.atomic_disk (congrArg Prod.fst hrun)
          rw [hrun] at hwrote
          refine ⟨?_, fun _ => hwrote⟩
          rintro _ ⟨⟩
          exact ⟨unit, rfl, hfiles⟩

/-- An action writes what it logs, as long as all units are written. -/
def Logs {α : Type} (start : List String) (options : Options) (action : StateM Memory α)
    (entries : α → List Logged) : Prop :=
  ∀ memory, memory.workingDirectory = start →
    (∀ entry ∈ entries (action memory).1, entry.isWritten = true) →
      Wrote memory ((entries (action memory).1).flatMap (Logged.placed start options))
        (action memory).2

theorem logs_logResult (input source : String)
    (result : Except SchemaError (Option CompilationUnit)) :
    Logs start options (logResult Memory.disk options input source result) fun entry => [entry] := by
  rintro memory rfl hwritten
  rw [List.flatMap_singleton]
  exact (lists_and_wrote_logResult input source result memory).2
    (hwritten _ (List.mem_singleton_self _))

/-- A loop writes what its steps log. -/
theorem Logs.mapM {α β : Type} {f : α → StateM Memory β} {entries : β → List Logged}
    (h : ∀ a, Logs start options (f a) entries) (as : List α) :
    Logs start options (as.mapM f) (·.flatMap entries) := by
  induction as with
  | nil => exact fun memory _ _ => .refl memory
  | cons a as ih =>
    intro memory hstart hwritten
    rw [run_mapM_cons] at hwritten ⊢
    dsimp only at hwritten ⊢
    rw [List.flatMap_cons] at hwritten ⊢
    obtain ⟨hfirst, hrest⟩ := List.forall_mem_append.mp hwritten
    have hwrote := h a memory hstart hfirst
    rw [List.flatMap_append]
    exact hwrote.trans (ih _ (hwrote.workingDirectory.trans hstart) hrest)

/-- The log of an input that is loaded. -/
theorem logInput_eq {path : Path} {memory : Memory} {set : DescriptorSet}
    (hload : (Input.load Memory.disk path memory).1 = .ok set) :
    logInput Memory.disk options path memory =
      (CompilationUnit.compileAll set options.settings).mapM (fun compiled =>
        logResult Memory.disk options path.text compiled.1 compiled.2) memory := by
  rw [logInput, run_bind, hload, reads_load path memory]

theorem logs_logInput (path : Path) :
    Logs start options (logInput Memory.disk options path) id := by
  intro memory hstart
  cases hload : (Input.load Memory.disk path memory).1 with
  | error error =>
    rw [logInput, run_bind, hload, reads_load path memory]
    exact fun _ => .refl memory
  | ok set =>
    have hstep (compiled : String × Except SchemaError (Option CompilationUnit)) :
        Logs start options (logResult Memory.disk options path.text compiled.1 compiled.2)
          fun entry => [entry] := logs_logResult path.text compiled.1 compiled.2
    have hloop := Logs.mapM hstep (CompilationUnit.compileAll set options.settings) memory hstart
    rw [logInput_eq hload]
    simpa only [List.flatMap_singleton', id] using hloop

/-! ### A whole run -/

section Run

variable {inputs : List String} {before after : Memory} {logs : List (List Logged)}

/-- The logs of a run are those of the paths that its arguments stand for. -/
theorem exists_paths_of_log (h : log Memory.disk inputs options before = (.ok logs, after)) :
    ∃ paths : List Path, paths.mapM (logInput Memory.disk options) before = (logs, after) := by
  rw [log, run_bind, reads_expandInputs inputs before] at h
  cases hpaths : (expandInputs Memory.disk inputs before).1 with
  | error error =>
    rw [hpaths] at h
    cases h
  | ok paths =>
    rw [hpaths] at h
    obtain ⟨hlogs, hafter⟩ := Prod.mk.inj h
    exact ⟨paths, Prod.ext (Except.ok.inj hlogs) hafter⟩

/-- The log of each input is that of a path. -/
theorem exists_path_of_mem_logs (h : log Memory.disk inputs options before = (.ok logs, after))
    {entries : List Logged} (hentries : entries ∈ logs) :
    ∃ path memory, entries = (logInput Memory.disk options path memory).1 := by
  obtain ⟨paths, hpaths⟩ := exists_paths_of_log h
  have hmem : entries ∈ (paths.mapM (logInput Memory.disk options) before).1 := by rwa [hpaths]
  obtain ⟨path, -, memory, heq⟩ := exists_of_mem_mapM hmem
  exact ⟨path, memory, heq⟩

/-- A run in which all units are written writes what is logged, and no other place for an artifact
changes. -/
theorem wrote_log (h : log Memory.disk inputs options before = (.ok logs, after))
    (hwritten : ∀ entry ∈ logs.flatten, entry.isWritten = true) :
    Wrote before (logs.flatten.flatMap (Logged.placed after.workingDirectory options)) after := by
  obtain ⟨paths, hpaths⟩ := exists_paths_of_log h
  have hstep (path : Path) : Logs before.workingDirectory options
      (logInput Memory.disk options path) id := logs_logInput path
  have hloop := Logs.mapM hstep paths before rfl
  rw [hpaths] at hloop
  simp only [List.flatMap_id] at hloop
  have hwrote := hloop hwritten
  rwa [← hwrote.workingDirectory] at hwrote

/-- The report of an entry lists the artifacts of its unit, and the unit is that of a file of the
input. -/
theorem exists_file_of_mem_logInput {path : Path} {memory : Memory}
    (h : entry ∈ (logInput Memory.disk options path memory).1) :
    entry.Lists options ∧ ∀ unit, entry.unit? = some unit →
      ∃ set file, (Input.load Memory.disk path memory).1 = .ok set ∧
        CompilationUnit.compile set.pool options.settings file = .ok (some unit) := by
  cases hload : (Input.load Memory.disk path memory).1 with
  | error error =>
    rw [logInput, run_bind, hload] at h
    obtain rfl := List.mem_singleton.mp h
    exact ⟨nofun, nofun⟩
  | ok set =>
    rw [logInput_eq hload] at h
    obtain ⟨⟨source, result⟩, hmem, memory, rfl⟩ := exists_of_mem_mapM h
    refine ⟨(lists_and_wrote_logResult path.text source result memory).1, fun unit hunit => ?_⟩
    obtain ⟨file, -, heq⟩ := List.mem_map.mp hmem
    obtain ⟨-, rfl⟩ := Prod.mk.inj heq
    refine ⟨set, file, rfl, ?_⟩
    replace hunit : (CompilationUnit.compile set.pool options.settings file).toOption.join =
      some unit := hunit
    cases hcompile : CompilationUnit.compile set.pool options.settings file with
    | error error =>
      rw [hcompile] at hunit
      cases hunit
    | ok unit? =>
      rw [hcompile] at hunit
      exact congrArg Except.ok hunit

/-- Units have the same text for documents of one name. -/
def AgreeOnDocuments (entries : List Logged) : Prop :=
  ∀ entry ∈ entries, ∀ entry' ∈ entries, ∀ unit ∈ entry.unit?, ∀ unit' ∈ entry'.unit?,
    ∀ document ∈ unit.documents, ∀ document' ∈ unit'.documents,
      document.1 = document'.1 → document.2 = document'.2

/-- All units of an input take their documents from the same descriptors. -/
theorem agreeOnDocuments_logInput (path : Path) (memory : Memory) :
    AgreeOnDocuments (logInput Memory.disk options path memory).1 := by
  intro entry hentry entry' hentry' unit hunit unit' hunit' document hdocument document' hdocument'
    hname
  obtain ⟨set, file, hload, hcompile⟩ := (exists_file_of_mem_logInput hentry).2 unit hunit
  obtain ⟨other, file', hload', hcompile'⟩ := (exists_file_of_mem_logInput hentry').2 unit' hunit'
  obtain rfl : set = other := Except.ok.inj (hload.symm.trans hload')
  obtain ⟨type, htype, rfl⟩ := List.mem_map.mp hdocument
  obtain ⟨type', htype', rfl⟩ := List.mem_map.mp hdocument'
  have hroot : type.root = type'.root := Showing.root_eq_of_compile hcompile' htype' hcompile htype
    ((String.append_left_inj _).mp hname)
  exact congrArg (·.toJson.pretty) hroot

/-- The files in the report of an entry are the artifacts of its unit, and each holds the text that
the unit has for it. -/
def Logged.IsKept (options : Options) (memory : Memory) (entry : Logged) : Prop :=
  ∀ files, entry.report.status = .generated files → ∃ unit, entry.unit? = some unit ∧
    List.Forall₂ (fun file artifact =>
      file = finalOf (unitDirectory options.output unit.source) artifact ∧
        memory.content? (file.place memory.workingDirectory) = some artifact.2)
      files (artifacts options unit)

theorem Logged.isKept_iff {memory : Memory} (hlists : entry.Lists options)
    (hwritten : entry.isWritten = true) : entry.IsKept options memory ↔
      ∀ w ∈ entry.placed memory.workingDirectory options, memory.content? w.1 = some w.2 := by
  obtain ⟨unit?, report⟩ := entry
  cases unit? with
  | none =>
    refine iff_of_true (fun files hfiles => ?_) nofun
    obtain ⟨unit, hunit, -⟩ := hlists files hfiles
    cases hunit
  | some unit =>
    obtain ⟨files, hfiles⟩ : ∃ files, report.status = .generated files := by
      cases hstatus : report.status with
      | generated files => exact ⟨files, rfl⟩
      | skipped => simp [isWritten, hstatus] at hwritten
      | failed error => simp [isWritten, hstatus] at hwritten
    obtain ⟨_, ⟨⟩, rfl⟩ := hlists files hfiles
    simp only [IsKept, hfiles, Status.generated.injEq, Option.some.injEq, exists_eq_left',
      forall_eq', List.forall₂_map_left_iff, List.forall₂_same, placed, Option.elim_some,
      Generate.placed, List.forall_mem_map, true_and]

theorem isFinal_of_mem_placed {w : List String × String}
    (h : w ∈ entry.placed start options) : IsFinal w.1 := by
  obtain ⟨unit?, report⟩ := entry
  cases unit? with
  | none => cases h
  | some unit =>
    obtain ⟨artifact, hartifact, rfl⟩ := List.mem_map.mp h
    let memory : Memory := ⟨.directory [], start⟩
    have hfinal : IsFinal (finalPlace memory (unitDirectory options.output unit.source) artifact) :=
      isFinal_finalPlace hartifact
    exact hfinal

/-- **When every unit of a run is kept.** A run in which all units are written reports the artifacts
of each of them. All of these hold the texts of their own units when the run ends exactly if no two
texts that are written for one place differ. The documents that the units of one input have under
one name never do. -/
theorem isKept_iff_agree (hrun : log Memory.disk inputs options before = (.ok logs, after))
    (hwritten : ∀ entry ∈ logs.flatten, entry.isWritten = true) :
    Command.generate Memory.disk inputs options before =
        ((Report.mk options.output (logs.flatten.map Logged.report)).outcome options.asJson,
          after) ∧
      ((∀ entry ∈ logs.flatten, entry.IsKept options after) ↔
        ∀ w ∈ logs.flatten.flatMap (Logged.placed after.workingDirectory options),
          ∀ w' ∈ logs.flatten.flatMap (Logged.placed after.workingDirectory options),
            w.1 = w'.1 → w.2 = w'.2) ∧
      ∀ entries ∈ logs, AgreeOnDocuments entries := by
  refine ⟨?_, ?_, fun entries hentries => ?_⟩
  · rw [generate_eq_log]
    exact congrArg (Prod.map (outcomeOf options) id) hrun
  · have hfinal : ∀ w ∈ logs.flatten.flatMap (Logged.placed after.workingDirectory options),
        IsFinal w.1 := by
      intro w hw
      obtain ⟨entry, -, hplaced⟩ := List.mem_flatMap.mp hw
      exact isFinal_of_mem_placed hplaced
    rw [← (wrote_log hrun hwritten).forall_content?_iff hfinal]
    simp only [List.forall_mem_flatMap]
    refine forall₂_congr fun entry hentry => Logged.isKept_iff ?_ (hwritten entry hentry)
    obtain ⟨entries, hentries, hmem⟩ := List.mem_flatten.mp hentry
    obtain ⟨path, memory, rfl⟩ := exists_path_of_mem_logs hrun hentries
    exact (exists_file_of_mem_logInput hmem).1
  · obtain ⟨path, memory, rfl⟩ := exists_path_of_mem_logs hrun hentries
    exact agreeOnDocuments_logInput path memory

/-- Files in the directory in which relative paths begin. -/
def memoryOf (files : List (String × String)) : Memory where
  root := .directory (files.map fun (name, text) => (name, .file text))
  workingDirectory := []

/-- A file with one message, under a name. -/
def messageText (name : String) : String :=
"files:
- path: m.proto
  options:
    generate: true
  messages:
  - name: " ++ name ++ "
"

/-- An input that is given twice is written twice, with the same texts. -/
theorem isKept_iff_agree_twice : ∃ logs after,
    log Memory.disk ["a.yaml", "a.yaml"] { emit := .documents } (memoryOf [("a.yaml", messageText "M")]) =
      (.ok logs, after) ∧
    (∀ entry ∈ logs.flatten, entry.isWritten = true) ∧
    (logs.flatten.flatMap (Logged.placed after.workingDirectory { emit := .documents })).map (·.1) =
      [["gen", "M.schema.json"], ["gen", "M.schema.json"]] ∧
    ∀ entry ∈ logs.flatten, entry.IsKept { emit := .documents } after := by
  generalize hrun : log Memory.disk ["a.yaml", "a.yaml"] { emit := .documents }
    (memoryOf [("a.yaml", messageText "M")]) = run
  obtain ⟨logs, hlogs, hfacts⟩ : ∃ logs, run.1 = .ok logs ∧
      decide ((∀ entry ∈ logs.flatten, entry.isWritten = true) ∧
        (logs.flatten.flatMap (Logged.placed run.2.workingDirectory { emit := .documents })).map (·.1) =
          [["gen", "M.schema.json"], ["gen", "M.schema.json"]] ∧
        ∀ w ∈ logs.flatten.flatMap (Logged.placed run.2.workingDirectory { emit := .documents }),
          ∀ w' ∈ logs.flatten.flatMap (Logged.placed run.2.workingDirectory { emit := .documents }),
            w.1 = w'.1 → w.2 = w'.2) = true := by
    subst hrun
    exact Except.exists_of_succeedsWith (by decide +kernel)
  obtain ⟨hwritten, hplaces, hagree⟩ := of_decide_eq_true hfacts
  obtain ⟨result, after⟩ := run
  obtain rfl : result = .ok logs := hlogs
  exact ⟨logs, after, rfl, hwritten, hplaces, (isKept_iff_agree hrun hwritten).2.1.mpr hagree⟩

/-- **A unit of one input may be lost to one of another.** Two inputs have a file of the same path,
and the module that is written for the second one stays. -/
theorem not_isKept : ¬ ∀ (options : Options) (inputs : List String) (before after : Memory)
    (logs : List (List Logged)), options.generatedOn = none →
    log Memory.disk inputs options before = (.ok logs, after) →
    (∀ entry ∈ logs.flatten, entry.isWritten = true) →
    ∀ entry ∈ logs.flatten, entry.IsKept options after := by
  intro hall
  generalize hrun : log Memory.disk ["a.yaml", "b.yaml"] { emit := .builders }
    (memoryOf [("a.yaml", messageText "M"), ("b.yaml", messageText "N")]) = run
  obtain ⟨logs, hlogs, hfacts⟩ : ∃ logs, run.1 = .ok logs ∧
      decide ((∀ entry ∈ logs.flatten, entry.isWritten = true) ∧
        ¬ ∀ w ∈ logs.flatten.flatMap (Logged.placed run.2.workingDirectory { emit := .builders }),
          run.2.content? w.1 = some w.2) = true := by
    subst hrun
    exact Except.exists_of_succeedsWith (by decide +kernel)
  obtain ⟨hwritten, hlost⟩ := of_decide_eq_true hfacts
  obtain ⟨result, after⟩ := run
  obtain rfl : result = .ok logs := hlogs
  refine hlost fun w hw => ?_
  obtain ⟨entry, hentry, hplaced⟩ := List.mem_flatMap.mp hw
  obtain ⟨entries, hentries, hmem⟩ := List.mem_flatten.mp hentry
  obtain ⟨path, memory, rfl⟩ := exists_path_of_mem_logs hrun hentries
  have hkept := hall _ _ _ after logs rfl hrun hwritten entry hentry
  exact (Logged.isKept_iff (exists_file_of_mem_logInput hmem).1 (hwritten entry hentry)).mp hkept w
    hplaced

end Run

end Generate

end MessageSchema
