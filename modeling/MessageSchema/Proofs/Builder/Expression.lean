import MessageSchema.Builder.OfUnit
import MessageSchema.Builder.Printer
import MessageSchema.Proofs.Program.Basic
import Mathlib.Data.Int.Notation

/-!
# Emitted code as a program

What is emitted is laid out as text from a description of its own, which knows about schemas. Here the
same description stands for expressions and functions of the language.

## Main definitions

* `Builder.Code.expression`: the expression that is emitted for a piece of code.
* `Builder.programOf`: the functions that are emitted for a unit.
-/

namespace MessageSchema.Builder

open Program

/-- A whole number; a negative one is the negative of its magnitude. -/
def expressionOfInt (n : ℤ) : Expression :=
  if n < 0 then .negated (.whole n.natAbs) else .whole n.natAbs

/-- A bound; a negative one is the negative of its magnitude. -/
def expressionOfBound (x : Binary64) : Expression :=
  if x.negative then .negated (.real x.neg) else .real x

/-- A text that is owned. -/
def expressionOfText (s : String) : Expression :=
  .method (.text s) "to_string" []

mutual

/-- The expression of a piece of code. -/
def Code.expression : Code → Expression
  | .blank => .call ["Schema", "default"] []
  | .reference name => .call ["Schema", "reference"] [.text name]
  | .call builder => .call [builder] [.path ["defs"]]
  | .node fields base => .record "Schema" (expressionOfFields fields) base.expression
  | .given value => .call ["Some"] [value.expression]
  | .boxed value => .call ["Box", "new"] [value.expression]
  | .type type => .path ["InstanceType", typeName type]
  | .text s => expressionOfText s
  | .count n => .whole n.toNat
  | .bound x => expressionOfBound x
  | .truth b => .truth b
  | .numbers items => .vector (items.map fun n => expressionOfInt n.toInt)
  | .texts items => .vector (items.map expressionOfText)
  | .nodes items => .vector (expressionsOf items)
  | .entries items =>
    .method (.method (.array (expressionsOfEntries items)) "into_iter" []) "collect" []

/-- The expressions of several pieces. -/
def expressionsOf : List Code → List Expression
  | [] => []
  | item :: rest => item.expression :: expressionsOf rest

/-- The fields of a structure. -/
def expressionOfFields : List (String × Code) → List (String × Expression)
  | [] => []
  | (name, value) :: rest => (name, value.expression) :: expressionOfFields rest

/-- The pairs of keys and nodes. -/
def expressionsOfEntries : List (String × Code) → List Expression
  | [] => []
  | (key, item) :: rest =>
    .pair (expressionOfText key) item.expression :: expressionsOfEntries rest

end

attribute [simp] Code.expression

/-- The function that returns the reference to a message with all it needs. -/
def rootProgram (type : GeneratedType) : Program.Function where
  name := type.ident ++ "_json_schema"
  parameter := none
  body :=
    [.bind (some "defs") (.call ["Definitions", "new"] []),
      .bind none (.call [CompilationUnit.builderName type.ident] [.lent "defs"])]
  result := .call ["Schema", "root_reference"] [.text type.fullName, .path ["defs"]]

/-- The function that registers a message. -/
def registerProgram (callees : Dictionary String) (type : GeneratedType) : Program.Function where
  name := CompilationUnit.builderName type.ident
  parameter := some "defs"
  body :=
    [.returnIf (.method (.path ["defs"]) "contains_key" [.text type.fullName])
        (.call ["Schema", "reference"] [.text type.fullName]),
      .perform (.method (.path ["defs"]) "insert"
        [expressionOfText type.fullName, .call ["Schema", "default"] []]),
      .bind (some "schema") (codeOf callees type.shape).expression,
      .perform (.method (.path ["defs"]) "insert"
        [expressionOfText type.fullName, .path ["schema"]])]
  result := .call ["Schema", "reference"] [.text type.fullName]

/-- The functions of a unit. -/
def programOf (unit : CompilationUnit) : List Program.Function :=
  unit.types.flatMap fun type => [rootProgram type, registerProgram unit.callees type]

end MessageSchema.Builder
