import MessageSchema.Command.Generate

/-!
# Arguments of the command line

The arguments of the program are a command, its inputs, and options in any order. Options with a
value take it from the next argument or behind an equals sign.

## Main definitions

* `Request`: what the program is asked to do.
* `UsageError`: why arguments ask for nothing.
* `Request.ofArguments`: the request that arguments make.
-/

namespace MessageSchema

/-- What the program is asked to do. -/
inductive Request where
  | check (input : Path)
  | list (input : Path) (asJson : Bool)
  | showMessage (input : Path) (typeName : String) (compact : Bool)
  /-- Modules record the time unless it is left out. -/
  | generate (inputs : List String) (options : Generate.Options) (recordsTime : Bool)
  | help
  | version

/-- Why arguments ask for nothing. -/
inductive UsageError
  | noCommand
  | unknownCommand (name : String)
  | unknownOption (name : String)
  | missingValue (option : String)
  | unexpectedValue (option : String)
  | badValue (option value : String) (allowed : List String)
  | missingArgument (name : String)
  | unexpectedArgument (argument : String)

/-- The wording of an error. -/
def UsageError.message : UsageError → String
  | .noCommand => "a command is required"
  | .unknownCommand name => "unrecognized command '" ++ name ++ "'"
  | .unknownOption name => "unexpected option '" ++ name ++ "'"
  | .missingValue option => "a value is required for '" ++ option ++ "'"
  | .unexpectedValue option => "'" ++ option ++ "' takes no value"
  | .badValue option value allowed =>
    "invalid value '" ++ value ++ "' for '" ++ option ++ "', expected one of " ++
      Text.joined ", " allowed
  | .missingArgument name => "the argument <" ++ name ++ "> is required"
  | .unexpectedArgument argument => "unexpected argument '" ++ argument ++ "'"

/-- Arguments sorted by their kinds. -/
structure Arguments where
  positional : List String := []
  switches : List String := []
  values : List (String × String) := []

namespace Arguments

/-- The long names of options by their letters. -/
def longName (option : String) : String :=
  if option = "-o" then "--output" else if option = "-h" then "--help"
  else if option = "-V" then "--version" else option

/-- Whether an option only raises the amount of messages, of which there are none. -/
def isVerbosity (option : String) : Bool :=
  option == "--verbose" ||
    match option.toList with
    | '-' :: 'v' :: rest => rest.all (· == 'v')
    | _ => false

/-- Sorts arguments for a command with certain switches and options. -/
def sorted (switches options : List String) : List String → Except UsageError Arguments
  | [] => .ok {}
  | "--" :: rest => .ok { positional := rest }
  | argument :: rest =>
    let isOption := argument.length > 1 && argument.toList.head? == some '-'
    let (name, value) := match Text.splitFirst? ['='] argument.toList with
      | some (name, value) => (longName (String.ofList name), some (String.ofList value))
      | none => (longName argument, none)
    if !isOption then do
      let others ← sorted switches options rest
      return { others with positional := argument :: others.positional }
    else if isVerbosity argument then sorted switches options rest
    else if switches.contains name then
      if value.isSome then .error (.unexpectedValue name)
      else do
        let others ← sorted switches options rest
        return { others with switches := name :: others.switches }
    else if options.contains name then
      match value, rest with
      | some value, rest | none, value :: rest => do
        let others ← sorted switches options rest
        return { others with values := (name, value) :: others.values }
      | none, [] => .error (.missingValue name)
    else .error (.unknownOption name)

/-- Whether a switch is given. -/
def has (arguments : Arguments) (switch : String) : Bool :=
  arguments.switches.contains switch

/-- The values of an option. -/
def valuesOf (arguments : Arguments) (option : String) : List String :=
  (arguments.values.filter (·.1 == option)).map (·.2)

/-- The only positional argument. -/
def only (arguments : Arguments) (name : String) : Except UsageError String :=
  match arguments.positional with
  | [] => .error (.missingArgument name)
  | [argument] => .ok argument
  | _ :: surplus :: _ => .error (.unexpectedArgument surplus)

end Arguments

namespace Request

/-- The request to generate. -/
def ofGenerate (rest : List String) : Except UsageError Request := do
  let arguments ← Arguments.sorted ["--no-timestamp", "--json"]
    ["--output", "--emit", "--shared-prefix"] rest
  if arguments.positional.isEmpty then .error (.missingArgument "INPUTS")
  else
    let emit ← match (arguments.valuesOf "--emit").getLast? with
      | none | some "all" => pure Generate.Emit.all
      | some "json" => pure .documents
      | some "rust" => pure .builders
      | some value => .error (.badValue "--emit" value ["json", "rust", "all"])
    let output := (arguments.valuesOf "--output").getLast?.getD "gen"
    return .generate arguments.positional
      { output := ⟨output⟩, emit, sharedPrefixes := arguments.valuesOf "--shared-prefix",
        asJson := arguments.has "--json" }
      (!arguments.has "--no-timestamp")

/-- The request to list. -/
def ofList (rest : List String) : Except UsageError Request := do
  let arguments ← Arguments.sorted ["--json"] [] rest
  return .list ⟨← arguments.only "INPUT"⟩ (arguments.has "--json")

/-- The request to show a message. -/
def ofShow (rest : List String) : Except UsageError Request := do
  let arguments ← Arguments.sorted ["--compact"] [] rest
  match arguments.positional with
  | input :: others =>
    let typeName ← { arguments with positional := others }.only "TYPE_NAME"
    return .showMessage ⟨input⟩ typeName (arguments.has "--compact")
  | [] => .error (.missingArgument "INPUT")

/-- The request to check. -/
def ofCheck (rest : List String) : Except UsageError Request := do
  let arguments ← Arguments.sorted [] [] rest
  return .check ⟨← arguments.only "INPUT"⟩

/-- The request that arguments make. A request for help stands anywhere. -/
def ofArguments (arguments : List String) : Except UsageError Request :=
  if arguments.any fun argument => argument = "--help" || argument = "-h" then .ok .help
  else match arguments.dropWhile Arguments.isVerbosity with
    | [] => .error .noCommand
    | "help" :: _ => .ok .help
    | "--version" :: _ | "-V" :: _ => .ok .version
    | "generate" :: rest => ofGenerate rest
    | "list" :: rest => ofList rest
    | "show" :: rest => ofShow rest
    | "check" :: rest => ofCheck rest
    | name :: _ => .error (.unknownCommand name)

/-- The lines that explain the arguments. -/
def usage : List String :=
  ["Compile protobuf descriptors into JSON Schema (Draft 2020-12)",
    "",
    "Usage:",
    "  generate [OPTIONS] <INPUTS>...      Generate schema documents and Rust builders",
    "    -o, --output <OUTPUT>             Output directory (default: gen)",
    "    --emit <json|rust|all>            What to write (default: all)",
    "    --shared-prefix <PREFIX>          Full-name prefix of shared types (default: google.)",
    "    --no-timestamp                    Omit the generation timestamp from Rust headers",
    "    --json                            Output as JSON",
    "  list [--json] <INPUT>               List the types each target file generates",
    "  show [--compact] <INPUT> <TYPE>     Print the schema for one message type",
    "  check <INPUT>                       Resolve every option and reference"]

end Request

end MessageSchema
