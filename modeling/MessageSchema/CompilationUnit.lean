import MessageSchema.Json.Printer
import MessageSchema.Schema.Codec
import MessageSchema.Selection
import MessageSchema.Synthesis

/-!
# Compilation units

A file is compiled by itself: its messages are selected, and every selected message that the file
declares, or that belongs to a shared package, gets its schema. Messages of other files are left to
the units of those files.

## Main definitions

* `Settings`: the version that is recorded and the packages that are shared.
* `CompilationUnit`: what a file is compiled to.
* `CompilationUnit.compile`: the unit of a file.
* `CompilationUnit.documents`: the documents of a unit.
-/

namespace MessageSchema

/-- Settings of a run. -/
structure Settings where
  version : String := "0.1.0"
  /-- How the full names of shared messages begin. -/
  sharedPrefixes : List String := ["google."]

/-- Whether a message is shared, by its full name. -/
def Settings.isShared (settings : Settings) (fullName : String) : Bool :=
  settings.sharedPrefixes.any fun start => (Text.stripStart? start fullName).isSome

/-- Where a message with a schema comes from: the file itself, or a shared package. -/
inductive Origin
  | own
  | shared
deriving DecidableEq, Repr, Inhabited

/-- A message with its schema. -/
structure GeneratedType where
  fullName : String
  /-- What the names of its builders begin with. -/
  ident : String
  origin : Origin
  /-- The schema of the message alone. -/
  shape : Schema
  /-- The reference that carries all schemas it needs. -/
  root : Schema
deriving Inhabited

/-- What a file is compiled to. -/
structure CompilationUnit where
  source : String
  stem : String
  /-- Messages of the file, then shared messages. -/
  types : List GeneratedType
  /-- The builder of each message that a schema may refer to. -/
  callees : Dictionary String
deriving Inhabited

namespace CompilationUnit

/-- A dotted name as a name without dots. -/
def flattened (name : String) : String :=
  String.ofList (name.toList.map fun c => if c = '.' then '_' else c)

/-- What the builders of a message of a package begin with in the unit of its own file. -/
def localIdent (message : Message) (package : String) : String :=
  flattened (message.relativeName package)

/-- What the builders of a shared message begin with in the unit of a file. -/
def sharedIdent (stem fullName : String) : String :=
  stem ++ "_" ++ flattened fullName

/-- The builder that registers a message. -/
def builderName (ident : String) : String :=
  ident ++ "_json_schema_with_defs"

/-- The module that holds the builders of a file. -/
def moduleName (stem : String) : String :=
  stem ++ "_jsonschema"

/-- Where a message gets its schema: in the unit of a file, if anywhere. -/
def originIn (settings : Settings) (file : File) (message : Message) : Option Origin :=
  if message.file = file.path then some .own
  else if settings.isShared message.fullName then some .shared
  else none

/-- What the builders of a message begin with. -/
def identOf (file : File) (origin : Origin) (message : Message) : String :=
  match origin with
  | .own => localIdent message file.package
  | .shared => sharedIdent file.stem message.fullName

/-- The builder of a message as it is called in the unit of a file. -/
def calleeOf (pool : Pool) (settings : Settings) (file : File) (message : Message) : String :=
  match originIn settings file message with
  | some origin => builderName (identOf file origin message)
  | none =>
    let package := (pool.packageOf? message.fullName).getD ""
    "super::" ++ moduleName (stemOfPath message.file) ++ "::" ++
      builderName (localIdent message package)

/-- A message with its schema, provided that every reference in it is resolved. -/
def generate (pool : Pool) (selected : List String) (file : File) (origin : Origin)
    (message : Message) : Except SchemaError GeneratedType := do
  let root ← Synthesis.root pool selected message.fullName
  match root.danglingReferences with
  | target :: _ => .error (.unresolvedReference message.fullName none target)
  | [] =>
    let shape ← Shape.ofMessage pool selected message
    let ident := identOf file origin message
    return { fullName := message.fullName, ident, origin, shape, root }

/-- Several messages with their schemas. -/
def generateAll (pool : Pool) (selected : List String) (file : File) :
    List (Origin × Message) → Except SchemaError (List GeneratedType)
  | [] => .ok []
  | (origin, message) :: rest => do
    let first ← generate pool selected file origin message
    let others ← generateAll pool selected file rest
    return first :: others

/-- The unit of a file, or nothing where nothing in the file is selected. -/
def compile (pool : Pool) (settings : Settings) (file : File) :
    Except SchemaError (Option CompilationUnit) := do
  let options ← file.options
  let default := (options.map (·.generate)).getD false
  let selected ← (Selection.select pool file.messages default []).2
  let from? (origin : Origin) : List (Origin × Message) :=
    (selected.filter (originIn settings file · = some origin)).map (origin, ·)
  let kept := from? .own ++ from? .shared
  if kept.isEmpty then return none
  else
    let types ← generateAll pool (selected.map (·.fullName)) file kept
    return some
      { source := file.path
        stem := file.stem
        types
        callees := Dictionary.ofList
          (selected.map fun message => (message.fullName, calleeOf pool settings file message)) }

/-- The units of all target files, each with the path of its file. A file that fails does not keep
the others from being compiled. -/
def compileAll (set : DescriptorSet) (settings : Settings) :
    List (String × Except SchemaError (Option CompilationUnit)) :=
  set.targetFiles.map fun file => (file.path, compile set.pool settings file)

/-- The file name of the module of builders. -/
def moduleFileName (unit : CompilationUnit) : String :=
  moduleName unit.stem ++ ".rs"

/-- The documents of a unit, one for each message, as file names and texts. -/
def documents (unit : CompilationUnit) : List (String × String) :=
  unit.types.map fun type => (type.fullName ++ ".schema.json", type.root.toJson.pretty)

end CompilationUnit

end MessageSchema
