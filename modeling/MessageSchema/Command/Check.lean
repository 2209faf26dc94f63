import MessageSchema.Command.Basic
import MessageSchema.CompilationUnit

/-!
# Checking a set of descriptors

Every option overlay and every reference of a set is looked at, also in files that generate nothing,
and then every unit is compiled. A unit that fails for a fault that is already reported adds nothing
to the report.

## Main definitions

* `Check.problems`: the faults of the declarations of a set.
* `Check.errors`: all that a check reports.
* `Command.check`: the command.
-/

namespace MessageSchema

namespace Check

/-- The fault of a result, if it is one. -/
def faultOf {α : Type} : Except SchemaError α → List SchemaError
  | .ok _ => []
  | .error error => [error]

/-- Whether the type that a field refers to is in a set. -/
def isResolved (set : DescriptorSet) (field : Field) : Bool :=
  if field.kind.isMessage then (set.message? field.target).isSome
  else if field.kind = .enum then (set.enumeration? field.target).isSome
  else true

/-- The faults of a field. -/
def fieldProblems (set : DescriptorSet) (message : Message) (field : Field) : List SchemaError :=
  faultOf (field.options message) ++
    if isResolved set field then [] else [Pool.unresolved message field field.target]

/-- The faults of a message. -/
def messageProblems (set : DescriptorSet) (message : Message) : List SchemaError :=
  faultOf message.options ++ message.unsupported.map message.unsupportedFault ++
    message.fields.flatMap (fieldProblems set message)

/-- The faults of the declarations of a set: those of files, then those of messages by name. -/
def problems (set : DescriptorSet) : List SchemaError :=
  set.files.flatMap (faultOf ·.options) ++
    (set.messageNames.filterMap set.message?).flatMap (messageProblems set)

/-- Of which kind a fault is, if it is about a declaration. -/
inductive FaultKind
  | unsupportedField
  | unresolvedReference
  | malformedOption
deriving DecidableEq

/-- What a fault is about, unless it is about no declaration: its kind, and a text that names the file,
the message or the field. -/
def subject? : SchemaError → Option (FaultKind × String)
  | .unsupportedFieldKind typeName field _ =>
    some (.unsupportedField, "field " ++ typeName ++ "." ++ field)
  | .unresolvedReference typeName (some field) _ =>
    some (.unresolvedReference, "field " ++ typeName ++ "." ++ field)
  | .unresolvedReference typeName none _ => some (.unresolvedReference, "message " ++ typeName)
  | .malformedOption scope _ => some (.malformedOption, scope)
  | .unknownType _ => none

/-- Whether a fault is about something that a fault in a list is about. -/
def isKnown (known : List SchemaError) (error : SchemaError) : Bool :=
  match subject? error with
  | none => false
  | some subject => (known.filterMap subject?).contains subject

/-- All that a check reports about a set and its units. -/
def errors (set : DescriptorSet)
    (units : List (String × Except SchemaError (Option CompilationUnit))) : List String :=
  let found := problems set
  found.map SchemaError.message ++ units.flatMap fun (source, result) =>
    ((faultOf result).filter (!isKnown found ·)).map fun error => source ++ ": " ++ error.message

/-- The report on a set. -/
def report (set : DescriptorSet) : Outcome :=
  let units := CompilationUnit.compileAll set {}
  match errors set units with
  | [] => .ofLines
    ["✅ All options and references resolve",
      "   Files:    " ++ toString set.files.length,
      "   Messages: " ++ toString set.messageNames.length,
      "   Units:    " ++ toString units.length]
  | errors =>
    let count := toString errors.length
    .ofLines (("❌ Errors (" ++ count ++ "):") :: errors.map ("   • " ++ ·) ++ [""])
      (some ("Check failed with " ++ count ++ " error(s)"))

end Check

namespace Command

/-- Checks an input. -/
def check {m : Type → Type} [Monad m] (disk : Disk m) (input : Path) : m Outcome := do
  let outcome ← onInput disk input Check.report
  return outcome.behind ["🔍 Checking: " ++ input.text, ""]

end Command

end MessageSchema
