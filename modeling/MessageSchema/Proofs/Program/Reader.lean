import MessageSchema.Proofs.Program.Basic
import MessageSchema.Proofs.Program.Lexeme

/-!
# Reading a module

The grammar of the language, by descent on the lexemes. Every call hands on one less than the fuel it
is given, and there are at most two calls for a lexeme, so that the count of lexemes gives enough fuel.

## Main definitions

* `Program.readExpression`: an expression at the beginning of some lexemes, and what follows it.
* `Program.readBody`, `Program.readFunctions`: statements and functions.
* `Program.readModule`: the functions of a module.
-/

namespace MessageSchema.Program

/-- A name with the names that lead to it. -/
def readPath : List Lexeme → Option (List String × List Lexeme)
  | .word s :: .mark ':' :: .mark ':' :: rest => do
    let (names, rest) ← readPath rest
    return (s :: names, rest)
  | .word s :: rest => some ([s], rest)
  | _ => none

mutual

/-- An expression. -/
def readExpression : ℕ → List Lexeme → Option (Expression × List Lexeme)
  | 0, _ => none
  | fuel + 1, .mark '-' :: rest => do
    let (value, rest) ← readExpression fuel rest
    return (.negated value, rest)
  | _ + 1, .mark '&' :: .word "mut" :: .word name :: rest => some (.lent name, rest)
  | fuel + 1, .text s :: rest => readMethods fuel (.text s) rest
  | fuel + 1, .whole n :: rest => readMethods fuel (.whole n) rest
  | fuel + 1, .real x :: rest => readMethods fuel (.real x) rest
  | fuel + 1, .mark '(' :: rest => do
    let (first, rest) ← readExpression fuel rest
    match rest with
    | .mark ',' :: rest =>
      let (second, rest) ← readExpression fuel rest
      match rest with
      | .mark ')' :: rest => readMethods fuel (.pair first second) rest
      | _ => none
    | _ => none
  | fuel + 1, .mark '[' :: rest => do
    let (items, rest) ← readItems fuel ']' rest
    readMethods fuel (.array items) rest
  | fuel + 1, .word s :: rest =>
    if s = "true" then readMethods fuel (.truth true) rest
    else if s = "false" then readMethods fuel (.truth false) rest
    else do
      let (names, rest) ← readPath (.word s :: rest)
      match rest with
      | .mark '(' :: rest =>
        let (arguments, rest) ← readItems fuel ')' rest
        readMethods fuel (.call names arguments) rest
      | .mark '!' :: .mark '[' :: rest =>
        if names = ["vec"] then
          let (items, rest) ← readItems fuel ']' rest
          readMethods fuel (.vector items) rest
        else none
      | .mark '\x7b' :: rest =>
        match names with
        | [type] =>
          let (fields, base, rest) ← readFields fuel rest
          readMethods fuel (.record type fields base) rest
        | _ => none
      | rest => readMethods fuel (.path names) rest
  | _ + 1, _ => none

/-- The methods that are called on an expression. -/
def readMethods : ℕ → Expression → List Lexeme → Option (Expression × List Lexeme)
  | 0, _, _ => none
  | fuel + 1, receiver, .mark '.' :: .word name :: .mark '(' :: rest => do
    let (arguments, rest) ← readItems fuel ')' rest
    readMethods fuel (.method receiver name arguments) rest
  | _ + 1, receiver, rest => some (receiver, rest)

/-- Expressions with commas between them and perhaps behind them, up to a closing mark. -/
def readItems : ℕ → Char → List Lexeme → Option (List Expression × List Lexeme)
  | 0, _, _ => none
  | fuel + 1, close, lexemes =>
    match lexemes with
    | [] => none
    | first :: rest =>
      if first = .mark close then some ([], rest)
      else do
        let (item, rest) ← readExpression fuel lexemes
        match rest with
        | .mark ',' :: rest =>
          let (items, rest) ← readItems fuel close rest
          return (item :: items, rest)
        | last :: rest => if last = .mark close then some ([item], rest) else none
        | [] => none

/-- The fields of a structure and its base, up to the closing brace. -/
def readFields : ℕ → List Lexeme →
    Option (List (String × Expression) × Expression × List Lexeme)
  | 0, _ => none
  | fuel + 1, .mark '.' :: .mark '.' :: rest => do
    let (base, rest) ← readExpression fuel rest
    match rest with
    | .mark '\x7d' :: rest => some ([], base, rest)
    | _ => none
  | fuel + 1, .word name :: .mark ':' :: rest => do
    let (value, rest) ← readExpression fuel rest
    match rest with
    | .mark ',' :: rest =>
      let (fields, base, rest) ← readFields fuel rest
      return ((name, value) :: fields, base, rest)
    | _ => none
  | _ + 1, _ => none

end

/-- The name of a variable; what is bound to an underscore is dropped. -/
def boundName (name : String) : Option String :=
  if name = "_" then none else some name

/-- Statements and a result, up to the closing brace. -/
def readBody : ℕ → List Lexeme → Option (List Statement × Expression × List Lexeme)
  | 0, _ => none
  | fuel + 1, .word "let" :: rest => do
    let (name, rest) ← match rest with
      | .word "mut" :: .word name :: .mark '=' :: rest => some (name, rest)
      | .word name :: .mark '=' :: rest => some (name, rest)
      | _ => none
    let (value, rest) ← readExpression fuel rest
    match rest with
    | .mark ';' :: rest =>
      let (body, result, rest) ← readBody fuel rest
      return (.bind (boundName name) value :: body, result, rest)
    | _ => none
  | fuel + 1, .word "if" :: rest => do
    let (condition, rest) ← readExpression fuel rest
    match rest with
    | .mark '\x7b' :: .word "return" :: rest =>
      let (value, rest) ← readExpression fuel rest
      match rest with
      | .mark ';' :: .mark '\x7d' :: rest =>
        let (body, result, rest) ← readBody fuel rest
        return (.returnIf condition value :: body, result, rest)
      | _ => none
    | _ => none
  | fuel + 1, rest => do
    let (value, rest) ← readExpression fuel rest
    match rest with
    | .mark ';' :: rest =>
      let (body, result, rest) ← readBody fuel rest
      return (.perform value :: body, result, rest)
    | .mark '\x7d' :: rest => some ([], value, rest)
    | _ => none

/-- The parameter of a function, if any, and the type of its result. -/
def readSignature : List Lexeme → Option (Option String × List Lexeme)
  | .mark '(' :: .mark ')' :: .mark '-' :: .mark '>' :: .word "Schema" :: .mark '\x7b' :: rest =>
    some (none, rest)
  | .mark '(' :: .word name :: .mark ':' :: .mark '&' :: .word "mut" :: .word "Definitions" ::
      .mark ')' :: .mark '-' :: .mark '>' :: .word "Schema" :: .mark '\x7b' :: rest =>
    some (some name, rest)
  | _ => none

/-- Functions up to the end of the text. -/
def readFunctions : ℕ → List Lexeme → Option (List Function)
  | 0, _ => none
  | _ + 1, [] => some []
  | fuel + 1, .word "pub" :: .word "fn" :: .word name :: rest => do
    let (parameter, rest) ← readSignature rest
    let (body, result, rest) ← readBody fuel rest
    let others ← readFunctions fuel rest
    return { name, parameter, body, result } :: others
  | _ + 1, _ => none

attribute [simp] readExpression readMethods readFields readBody readSignature readFunctions

/-- What stands before the functions: a permission to name functions freely, and the names that
come from outside. -/
def header : List Lexeme :=
  [.mark '#', .mark '!', .mark '[', .word "allow", .mark '(', .word "non_snake_case", .mark ')',
    .mark ']', .word "use", .word "protoschema_core", .mark ':', .mark ':', .mark '\x7b',
    .word "Definitions", .mark ',', .word "InstanceType", .mark ',', .word "Schema", .mark '\x7d',
    .mark ';']

/-- The functions of a module. -/
def readModule (alphabet : Alphabet) (text : String) : Option (List Function) := do
  let rest ← header.isPrefixOf? (lexemes alphabet text)
  readFunctions (2 * rest.length + 1) rest

end MessageSchema.Program
