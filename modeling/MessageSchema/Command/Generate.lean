import MessageSchema.Builder.OfUnit
import MessageSchema.Builder.Printer
import MessageSchema.Command.Basic
import MessageSchema.Glob.Expand

/-!
# Generating files

The artifacts of every unit of every input are written below an output directory, in the directory
of the source file. All artifacts of a unit are staged beside their places before the first is moved
there, so that a write that fails leaves none of them behind. Units and inputs that fail do not keep
the others from being generated.

## Main definitions

* `Generate.Emit`: which artifacts are written.
* `Generate.artifacts`, `Generate.unitDirectory`: the artifacts of a unit and where they go.
* `Generate.writeUnit`: writes a unit.
* `Generate.UnitReport`, `Generate.Report`: what is reported.
* `Command.generate`: the command.
-/

namespace MessageSchema

namespace Generate

/-- Which artifacts are written. -/
inductive Emit
  | documents
  | builders
  | all
deriving DecidableEq, Inhabited

/-- Whether documents are written. -/
def Emit.hasDocuments : Emit → Bool
  | documents | all => true
  | builders => false

/-- Whether modules of builders are written. -/
def Emit.hasBuilders : Emit → Bool
  | builders | all => true
  | documents => false

/-- What a run is asked for. -/
structure Options where
  output : Path := ⟨"gen"⟩
  emit : Emit := .all
  /-- How the full names of shared messages begin, unless nothing is said about it. -/
  sharedPrefixes : List String := []
  /-- Seconds since the epoch that modules record. -/
  generatedOn : Option Int := none
  asJson : Bool := false

/-- The settings of a run. -/
def Options.settings (options : Options) : Settings :=
  if options.sharedPrefixes.isEmpty then {} else { sharedPrefixes := options.sharedPrefixes }

/-! ### Writing a unit -/

/-- The artifacts of a unit, as file names and texts. -/
def artifacts (options : Options) (unit : CompilationUnit) : List (String × String) :=
  (if options.emit.hasDocuments then unit.documents else []) ++
    if options.emit.hasBuilders then
      [(unit.moduleFileName,
        (Builder.moduleOf unit options.settings.version options.generatedOn).print)]
    else []

/-- The directory of a unit: that of its source below the output. -/
def unitDirectory (output : Path) (source : String) : Path :=
  match (Path.mk source).parent? with
  | some parent => output.join parent
  | none => output

/-- Why a unit is not written. -/
inductive WriteError
  | directory (path : Path) (error : DiskError)
  | stage (path : Path) (error : DiskError)
  | place (path : Path) (error : DiskError)

/-- The wording of an error. -/
def WriteError.message : WriteError → String
  | .directory path error => "Failed to create directory " ++ path.text ++ ": " ++ error.message
  | .stage path error => "Failed to write " ++ path.text ++ ": " ++ error.message
  | .place path error => "Failed to move " ++ path.text ++ " into place: " ++ error.message

/-- An artifact that is written beside its place. -/
structure Staged where
  temporary : Path
  final : Path

variable {m : Type → Type} [Monad m]

/-- Removes staged artifacts. One that cannot be removed stays. -/
def discard (disk : Disk m) : List Staged → m Unit
  | [] => return
  | artifact :: rest => do
    let _ ← disk.remove artifact.temporary
    discard disk rest

/-- Stages artifacts in a directory behind those that are staged. If one cannot be written, the ones
before it are removed. -/
def stage (disk : Disk m) (directory : Path) :
    List (String × String) → List Staged → m (Except WriteError (List Staged))
  | [], staged => return .ok staged
  | (name, text) :: rest, staged => do
    let temporary := directory.join ⟨name ++ ".tmp"⟩
    match ← disk.write temporary text with
    | .error error =>
      discard disk staged
      return .error (.stage temporary error)
    | .ok () => stage disk directory rest (staged ++ [⟨temporary, directory.join ⟨name⟩⟩])

/-- Moves staged artifacts into place. If one cannot be moved, it and the ones behind it are
removed. -/
def place (disk : Disk m) : List Staged → m (Except WriteError Unit)
  | [] => return .ok ()
  | artifact :: rest => do
    match ← disk.rename artifact.temporary artifact.final with
    | .error error =>
      discard disk (artifact :: rest)
      return .error (.place artifact.final error)
    | .ok () => place disk rest

/-- Writes a unit and returns the paths of its artifacts. -/
def writeUnit (disk : Disk m) (options : Options) (unit : CompilationUnit) :
    m (Except WriteError (List Path)) := do
  let directory := unitDirectory options.output unit.source
  match ← disk.createDirectories directory with
  | .error error => return .error (.directory directory error)
  | .ok () => match ← stage disk directory (artifacts options unit) [] with
    | .error error => return .error error
    | .ok staged => match ← place disk staged with
      | .error error => return .error error
      | .ok () => return .ok (staged.map (·.final))

/-! ### Reports -/

/-- How a unit comes out. -/
inductive Status
  | generated (files : List Path)
  | skipped
  | failed (error : String)

/-- What is reported of a unit, or of an input that has none. -/
structure UnitReport where
  input : String
  source : String
  status : Status

/-- The name of a status. -/
def Status.name : Status → String
  | generated _ => "generated"
  | skipped => "skipped"
  | failed _ => "failed"

/-- The members of a status in a report. An empty list of files is left out. -/
def Status.members : Status → List (String × Json)
  | generated files =>
    if files.isEmpty then [] else [("files", .array (files.map fun path => .text path.text))]
  | skipped => []
  | failed error => [("error", .text error)]

/-- A report as JSON. -/
def UnitReport.toJson (report : UnitReport) : Json :=
  .object ([("input", .text report.input), ("source", .text report.source),
    ("status", .text report.status.name)] ++ report.status.members)

/-- The lines of a report. -/
def UnitReport.lines (report : UnitReport) : List String :=
  match report.status with
  | .generated files =>
    ("✅ " ++ report.source ++ " (" ++ toString files.length ++ " file(s))") ::
      files.map fun path => "   • " ++ path.text
  | .skipped => ["⏭️  " ++ report.source ++ " (nothing to generate)"]
  | .failed error => ["❌ " ++ report.source, "   " ++ error]

/-- What is reported of a run. -/
structure Report where
  output : Path
  units : List UnitReport

/-- How many units have a status. -/
def Report.count (report : Report) (status : String) : Nat :=
  (report.units.filter (·.status.name == status)).length

/-- A report as JSON. -/
def Report.toJson (report : Report) : Json :=
  let count (status : String) : String × Json := (status, .integer (report.count status))
  .object [("output", .text report.output.text), count "generated", count "skipped",
    count "failed", ("units", .array (report.units.map UnitReport.toJson))]

/-- The lines of a report. -/
def Report.lines (report : Report) : List String :=
  let count (status : String) : String := toString (report.count status)
  ["📦 Generating into " ++ report.output.text, ""] ++ report.units.flatMap UnitReport.lines ++
    ["", "Generated: " ++ count "generated" ++ "  Skipped: " ++ count "skipped" ++ "  Failed: " ++
      count "failed"]

/-- The outcome of a run. -/
def Report.outcome (report : Report) (asJson : Bool) : Outcome :=
  let failed := report.count "failed"
  .ofLines (if asJson then [report.toJson.pretty] else report.lines)
    (if failed = 0 then none
      else some (toString failed ++ " of " ++ toString report.units.length ++ " unit(s) failed"))

/-! ### A run -/

/-- Writes what a file is compiled to. -/
def writeResult (disk : Disk m) (options : Options) :
    Except SchemaError (Option CompilationUnit) → m Status
  | .error error => return .failed error.message
  | .ok none => return .skipped
  | .ok (some unit) => do
    match ← writeUnit disk options unit with
    | .ok files => return .generated files
    | .error error => return .failed error.message

/-- Generates the files of an input. -/
def generateInput (disk : Disk m) (options : Options) (path : Path) : m (List UnitReport) := do
  let input := path.text
  match ← Input.load disk path with
  | .error error => return [⟨input, input, .failed error.message⟩]
  | .ok set => (CompilationUnit.compileAll set options.settings).mapM fun (source, result) => do
    return ⟨input, source, ← writeResult disk options result⟩

/-- Whether an argument is a pattern. -/
def isPattern (argument : String) : Bool :=
  argument.toList.any fun c => c = '*' || c = '?' || c = '['

/-- Why an argument stands for no paths. -/
inductive ArgumentError
  | badPattern (argument : String) (error : Glob.Error)
  | noMatch (argument : String)

/-- The wording of an error. -/
def ArgumentError.message : ArgumentError → String
  | .badPattern argument error@(.invalid _) =>
    "Invalid glob pattern: " ++ argument ++ ": " ++ error.message
  | .badPattern argument error => "Failed to expand " ++ argument ++ ": " ++ error.message
  | .noMatch argument => "No files match " ++ argument

/-- The paths that an argument stands for: a pattern for the paths that fit it, which there have to
be, and any other for itself. -/
def expandInput (disk : Disk m) (argument : String) : m (Except ArgumentError (List Path)) := do
  if !isPattern argument then return .ok [⟨argument⟩]
  else match ← Glob.expand disk argument with
    | .error error => return .error (.badPattern argument error)
    | .ok [] => return .error (.noMatch argument)
    | .ok paths => return .ok paths

/-- The paths that arguments stand for, up to the first that stands for none. -/
def expandInputs (disk : Disk m) : List String → m (Except ArgumentError (List Path))
  | [] => return .ok []
  | argument :: rest => do
    match ← expandInput disk argument with
    | .error error => return .error error
    | .ok paths => return (paths ++ ·) <$> (← expandInputs disk rest)

end Generate

namespace Command

/-- Generates the files of inputs. -/
def generate {m : Type → Type} [Monad m] (disk : Disk m) (inputs : List String)
    (options : Generate.Options) : m Outcome := do
  match ← Generate.expandInputs disk inputs with
  | .error error => return .failed error.message
  | .ok paths =>
    let units ← paths.mapM (Generate.generateInput disk options)
    return (Generate.Report.mk options.output units.flatten).outcome options.asJson

end Command

end MessageSchema
