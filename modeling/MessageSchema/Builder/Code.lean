import MessageSchema.Schema.Basic

/-!
# Code that builds schemas

The part of a programming language in which the emitted modules are written. An expression builds a
schema node or the value of one of its fields; a call registers a message and returns a reference to
it. A function is a list of statements, the last of which gives its result.

## Main definitions

* `Code`: an expression.
* `Statement`, `Function`: the functions of a module.
* `Module`: an emitted module.
-/

namespace MessageSchema.Builder

/-- An expression. -/
inductive Code where
  /-- The node without keywords. -/
  | blank
  /-- The reference to a message, by its full name. -/
  | reference (name : String)
  /-- The result of a builder, which registers a message. -/
  | call (builder : String)
  /-- A node with several fields set and all others taken from a base. -/
  | node (fields : List (String × Code)) (base : Code)
  /-- A field that is set. -/
  | given (value : Code)
  | boxed (value : Code)
  | type (type : PrimitiveType)
  | text (s : String)
  | count (n : UInt64)
  | bound (x : Binary64)
  | truth (b : Bool)
  /-- Whole numbers in a line. -/
  | numbers (items : List Int64)
  /-- Texts in a line. -/
  | texts (items : List String)
  /-- Nodes on lines of their own. -/
  | nodes (items : List Code)
  /-- Nodes under keys, on lines of their own. -/
  | entries (items : List (String × Code))
deriving Inhabited

/-- A statement of a function. -/
inductive Statement where
  /-- Begins with an empty registry. -/
  | newRegistry
  /-- Calls a builder and drops its result. -/
  | callOnly (builder : String)
  /-- Returns a reference to a message, with the registry. -/
  | returnRoot (name : String)
  /-- Returns a reference to a message if the message is registered. -/
  | returnIfRegistered (name : String)
  /-- Registers a message under a node without keywords. -/
  | registerBlank (name : String)
  /-- Builds a node. -/
  | build (value : Code)
  /-- Registers a message under the node that has been built. -/
  | registerBuilt (name : String)
  /-- Returns a reference to a message. -/
  | returnReference (name : String)
deriving Inhabited

/-- A function: its name, whether it is given a registry, and its statements. -/
structure Function where
  name : String
  isGivenRegistry : Bool
  body : List Statement
deriving Inhabited

/-- The functions of a message under a line of documentation. -/
structure Section where
  summary : String
  functions : List Function
deriving Inhabited

/-- A module. -/
structure Module where
  source : String
  version : String
  /-- When it was generated, in seconds since the beginning of 1970. -/
  generatedOn : Option Int
  sections : List Section
deriving Inhabited

end MessageSchema.Builder
