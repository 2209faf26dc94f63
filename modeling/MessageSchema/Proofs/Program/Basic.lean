import MessageSchema.Schema.Basic
import Mathlib.Data.Nat.Notation

/-!
# The language of emitted modules

The part of the language that emitted modules use, as a language of its own: expressions, the
statements of a function, and functions that are either given a registry or not. Nothing here knows
which module is emitted for which unit.

## Main definitions

* `Program.Expression`: an expression.
* `Program.Statement`, `Program.Function`: a function and what it does in turn.
-/

namespace MessageSchema.Program

/-- An expression. -/
inductive Expression where
  | text (s : String)
  | whole (n : ℕ)
  | real (x : Binary64)
  | truth (b : Bool)
  /-- A name, with the names that lead to it. -/
  | path (names : List String)
  /-- A variable that is lent, so that what it is lent to may change it. -/
  | lent (name : String)
  | negated (value : Expression)
  | call (function : List String) (arguments : List Expression)
  | method (receiver : Expression) (name : String) (arguments : List Expression)
  | pair (first second : Expression)
  | array (items : List Expression)
  | vector (items : List Expression)
  /-- A structure with some fields given and all others taken from a base. -/
  | record (type : String) (fields : List (String × Expression)) (base : Expression)
deriving Inhabited

/-- A statement. -/
inductive Statement where
  /-- A variable with its first value, or a value that is dropped. -/
  | bind (name : Option String) (value : Expression)
  | perform (value : Expression)
  /-- Returns a value early if a condition holds. -/
  | returnIf (condition value : Expression)
deriving Inhabited

/-- A function: the variable to which a registry is lent, if any, the statements, and the value that
is returned after them. -/
structure Function where
  name : String
  parameter : Option String
  body : List Statement
  result : Expression
deriving Inhabited

end MessageSchema.Program
