import MessageSchema.Binary64.Layout
import MessageSchema.Builder.Code
import MessageSchema.Calendar
import MessageSchema.Text.Quoted

/-!
# The text of a module

## Main definitions

* `Builder.Code.print`: the text of an expression at a level of indentation.
* `Builder.Module.print`: the text of a module.
-/

namespace MessageSchema.Builder

/-- The indentation of a level. -/
def indent (level : Nat) : String :=
  String.ofList (List.replicate (4 * level) ' ')

/-- The name of a primitive type in code. -/
def typeName : PrimitiveType → String
  | .array => "Array"
  | .boolean => "Boolean"
  | .integer => "Integer"
  | .null => "Null"
  | .number => "Number"
  | .object => "Object"
  | .string => "String"

/-- An owned text. -/
def ownedText (s : String) : String :=
  Text.quote s ++ ".to_string()"

mutual

/-- The text of an expression that stands at a level of indentation. -/
def Code.print (level : Nat) : Code → String
  | .blank => "Schema::default()"
  | .reference name => "Schema::reference(" ++ Text.quote name ++ ")"
  | .call builder => builder ++ "(defs)"
  | .node fields base =>
    "Schema \x7b\n" ++ printFields level fields ++ indent (level + 1) ++ ".." ++
      Code.print level base ++ "\n" ++ indent level ++ "\x7d"
  | .given value => "Some(" ++ Code.print level value ++ ")"
  | .boxed value => "Box::new(" ++ Code.print (level + 1) value ++ ")"
  | .type type => "InstanceType::" ++ typeName type
  | .text s => ownedText s
  | .count n => toString n
  | .bound x => NumberLayout.code.text x
  | .truth b => if b then "true" else "false"
  | .numbers items => "vec![" ++ ", ".intercalate (items.map fun n => toString n.toInt) ++ "]"
  | .texts items => "vec![" ++ ", ".intercalate (items.map ownedText) ++ "]"
  | .nodes items => "vec![\n" ++ printNodes level items ++ indent (level + 1) ++ "]"
  | .entries items =>
    let margin := indent (level + 1)
    "[\n" ++ printEntries level items ++ margin ++ "]\n" ++ margin ++ ".into_iter()\n" ++ margin ++
      ".collect()"

/-- The lines of the fields of a node. -/
def printFields (level : Nat) : List (String × Code) → String
  | [] => ""
  | (name, value) :: rest =>
    indent (level + 1) ++ name ++ ": " ++ Code.print level value ++ ",\n" ++ printFields level rest

/-- The lines of several nodes. -/
def printNodes (level : Nat) : List Code → String
  | [] => ""
  | item :: rest =>
    indent (level + 2) ++ Code.print (level + 2) item ++ ",\n" ++ printNodes level rest

/-- The lines of nodes under keys. -/
def printEntries (level : Nat) : List (String × Code) → String
  | [] => ""
  | (key, item) :: rest =>
    indent (level + 2) ++ "(" ++ ownedText key ++ ", " ++ Code.print (level + 2) item ++ "),\n" ++
      printEntries level rest

end

/-- The lines of a statement. -/
def Statement.print : Statement → String
  | .newRegistry => "    let mut defs = Definitions::new();\n"
  | .callOnly builder => "    let _ = " ++ builder ++ "(&mut defs);\n"
  | .returnRoot name => "    Schema::root_reference(" ++ Text.quote name ++ ", defs)\n"
  | .returnIfRegistered name =>
    let key := Text.quote name
    "    if defs.contains_key(" ++ key ++ ") \x7b\n        return Schema::reference(" ++ key ++
      ");\n    \x7d\n"
  | .registerBlank name =>
    "    // Register first so self-references resolve to a $ref.\n    defs.insert(" ++
      ownedText name ++ ", Schema::default());\n\n"
  | .build value => "    let schema = " ++ Code.print 1 value ++ ";\n"
  | .registerBuilt name => "    defs.insert(" ++ ownedText name ++ ", schema);\n"
  | .returnReference name => "    Schema::reference(" ++ Text.quote name ++ ")\n"

/-- The text of a function. -/
def Function.print (function : Function) : String :=
  "pub fn " ++ function.name ++
    (if function.isGivenRegistry then "(defs: &mut Definitions)" else "()") ++
    " -> Schema \x7b\n" ++ String.join (function.body.map Statement.print) ++ "\x7d\n"

/-- The text of the functions of a message. -/
def Section.print (part : Section) : String :=
  "/// " ++ part.summary ++ "\n" ++ "\n".intercalate (part.functions.map Function.print)

/-- The text of a module. -/
def Module.print (module : Module) : String :=
  let stamp := match module.generatedOn with
    | some seconds => "//\n// Generated on: " ++ Calendar.text seconds ++ " UTC\n"
    | none => ""
  "// Code generated by protoschema. DO NOT EDIT.\n//\n// Source: " ++ module.source ++
    "\n// Generator version: " ++ module.version ++ "\n" ++ stamp ++
    "\n#![allow(non_snake_case)]\n\n" ++
    "use protoschema_core::\x7bDefinitions, InstanceType, Schema\x7d;\n" ++
    String.join (module.sections.map fun part => "\n" ++ part.print)

end MessageSchema.Builder
