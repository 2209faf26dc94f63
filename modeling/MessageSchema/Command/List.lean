import MessageSchema.Command.Basic
import MessageSchema.CompilationUnit

/-!
# Listing what is generated

The types of each unit, with the names of their builders and where they come from, as lines or as a
JSON document.

## Main definitions

* `Listing.Entry`: what is listed of a unit.
* `Command.list`: the command.
-/

namespace MessageSchema

namespace Listing

/-- What is listed of a unit: its types, or why it does not compile. -/
structure Entry where
  source : String
  types : List GeneratedType := []
  error : Option String := none

/-- The entry of a unit. -/
def entryOf : String × Except SchemaError (Option CompilationUnit) → Entry
  | (source, .ok unit) => { source, types := (unit.map (·.types)).getD [] }
  | (source, .error error) => { source, error := some error.message }

/-- The name of an origin. -/
def originName : Origin → String
  | .own => "local"
  | .shared => "shared"

/-- A text filled up with blanks to a width. -/
def padded (width : Nat) (text : String) : String :=
  text ++ String.ofList (List.replicate (width - text.length) ' ')

/-- The line of a type. -/
def typeLine (type : GeneratedType) : String :=
  "  " ++ padded 7 (originName type.origin) ++ " " ++ padded 40 type.fullName ++ " " ++ type.ident

/-- The lines of a unit. -/
def lines (entry : Entry) : List String :=
  entry.source :: match entry.error with
    | some error => ["  ❌ " ++ error]
    | none => if entry.types.isEmpty then ["  (nothing to generate)"] else entry.types.map typeLine

/-- A type as JSON. -/
def typeJson (type : GeneratedType) : Json :=
  .object [("name", .text type.fullName), ("ident", .text type.ident),
    ("origin", .text (originName type.origin))]

/-- A unit as JSON. -/
def entryJson (entry : Entry) : Json :=
  .object ([("source", .text entry.source), ("types", .array (entry.types.map typeJson))] ++
    entry.error.toList.map fun error => ("error", .text error))

/-- The report on a set. -/
def report (asJson : Bool) (set : DescriptorSet) : Outcome :=
  let entries := (CompilationUnit.compileAll set {}).map entryOf
  let printed :=
    if asJson then [(Json.array (entries.map entryJson)).pretty]
    else if entries.isEmpty then ["No target files."]
    else entries.flatMap lines
  let failed := (entries.filter (·.error.isSome)).length
  .ofLines printed
    (if failed = 0 then none else some (toString failed ++ " unit(s) failed to compile"))

end Listing

namespace Command

/-- Lists what is generated for an input. -/
def list {m : Type → Type} [Monad m] (disk : Disk m) (input : Path) (asJson : Bool) : m Outcome :=
  onInput disk input (Listing.report asJson)

end Command

end MessageSchema
