/-!
# Patterns

The tree of a regular expression, as far as it matters to whether the expression is well formed.

## Main definitions

* `Pattern`: an expression; `CharSet`: the inside of a bracketed class.
* `Pattern.levels`: how deep parts nest in an expression.
* `Pattern.groupNames`: the names of its groups.
-/

namespace MessageSchema

/-- A character of a pattern. A byte escape is a character given by two hexadecimal digits. -/
structure PatternChar where
  char : Char
  isByteEscape : Bool := false

/-- Switches set or reset by a pattern: whether characters are those of Unicode, and whether white
space in the pattern is skipped. Other switches do not matter here. -/
structure PatternFlags where
  unicode : Option Bool
  spaced : Option Bool

/-- A named property, by itself or with a value. -/
inductive PropertyName
  | single (name : List Char)
  | withValue (name value : List Char)

/-- The inside of a bracketed class. -/
inductive CharSet where
  | empty
  | char (c : PatternChar)
  | range (first last : PatternChar)
  /-- Digits, white space or word characters, or a class of ASCII by name. -/
  | standard (negated : Bool)
  | property (name : PropertyName)
  | bracketed (negated : Bool) (set : CharSet)
  | union (items : List CharSet)
  /-- Intersection, difference or symmetric difference. -/
  | combination (left right : CharSet)

/-- A regular expression. -/
inductive Pattern where
  | empty
  | flags (change : PatternFlags)
  | char (c : PatternChar)
  | dot
  | assertion
  | standard (negated : Bool)
  | property (name : PropertyName)
  | bracketed (negated : Bool) (set : CharSet)
  | repetition (body : Pattern)
  | group (name : Option (List Char)) (change : Option PatternFlags) (body : Pattern)
  | alternation (branches : List Pattern)
  | concatenation (parts : List Pattern)

mutual

/-- How deep parts nest in a class. -/
def CharSet.levels : CharSet → Nat
  | .bracketed _ set => set.levels + 1
  | .union items => CharSet.levelsOfAll items + 1
  | .combination left right => max left.levels right.levels + 1
  | _ => 0

/-- The greatest nesting among the items of a class. -/
def CharSet.levelsOfAll : List CharSet → Nat
  | [] => 0
  | item :: rest => max item.levels (CharSet.levelsOfAll rest)

end

namespace Pattern

mutual

/-- How deep parts nest in an expression. -/
def levels : Pattern → Nat
  | .bracketed _ set => set.levels + 1
  | .repetition body => levels body + 1
  | .group _ _ body => levels body + 1
  | .alternation branches => levelsOfAll branches + 1
  | .concatenation parts => levelsOfAll parts + 1
  | _ => 0

/-- The greatest nesting among several expressions. -/
def levelsOfAll : List Pattern → Nat
  | [] => 0
  | part :: rest => max (levels part) (levelsOfAll rest)

end

mutual

/-- The names of the groups of an expression. -/
def groupNames : Pattern → List (List Char)
  | .repetition body => groupNames body
  | .group name _ body => name.toList ++ groupNames body
  | .alternation branches => groupNamesOfAll branches
  | .concatenation parts => groupNamesOfAll parts
  | _ => []

/-- The names of the groups of several expressions. -/
def groupNamesOfAll : List Pattern → List (List Char)
  | [] => []
  | part :: rest => groupNames part ++ groupNamesOfAll rest

end

/-- Parts in sequence; a single part stands for itself. -/
def ofParts : List Pattern → Pattern
  | [] => .empty
  | [part] => part
  | parts => .concatenation parts

/-- Branches to choose from; a single branch stands for itself. -/
def ofBranches : List Pattern → Pattern
  | [branch] => branch
  | branches => .alternation branches

end Pattern

/-- Items side by side; a single item stands for itself. -/
def CharSet.ofItems : List CharSet → CharSet
  | [] => .empty
  | [item] => item
  | items => .union items

end MessageSchema
