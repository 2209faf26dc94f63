import MessageSchema.Proofs.Program.Basic
import Mathlib.Data.Int.Notation

/-!
# What a module does when it runs

An expression has a value and may change variables; operands come in the order in which they are
written, and the base of a structure comes after its fields. A registry that is lent to a function is
changed in place. Since nothing else can reach a registry while it is lent, the call is described by
the registry before and the registry after.

Only accepted modules have a meaning here: where types do not fit, or a name is not known, there is no
value. Calls may go in circles, and so the depth to which they nest is bounded.

## Main definitions

* `Program.Datum`, `Program.Locals`: data, and the variables of a function.
* `Program.assign`: setting a field of a schema node.
* `Program.eval`: the value of an expression.
* `Program.callAt`, `Program.invoke`: the result of a function, with and without a registry.
-/

namespace MessageSchema.Program

/-- A value. -/
inductive Datum where
  /-- A text literal. -/
  | slice (s : String)
  | text (s : String)
  | whole (n : ℤ)
  | real (x : Binary64)
  | truth (b : Bool)
  | type (type : PrimitiveType)
  | node (node : Schema)
  | registry (registry : Registry)
  /-- A registry that has been lent to the function. -/
  | borrowed (registry : Registry)
  /-- The variable that holds a registry, where the registry is lent further. -/
  | place (name : String)
  | given (value : Datum)
  | boxed (value : Datum)
  | pair (first second : Datum)
  | array (items : List Datum)
  | vector (items : List Datum)
  /-- The items of an array one after the other. -/
  | sequence (items : List Datum)
  /-- The value of what has none. -/
  | unit
deriving Inhabited

/-- The variables of a function, the latest first. -/
abbrev Locals := List (String × Datum)

/-! ### Fields of a node -/

namespace Datum

/-- The value that is given. -/
def given? : Datum → Option Datum
  | given value => some value
  | _ => none

def text? : Datum → Option String
  | text s => some s
  | _ => none

def type? : Datum → Option PrimitiveType
  | type t => some t
  | _ => none

def truth? : Datum → Option Bool
  | truth b => some b
  | _ => none

def bound? : Datum → Option Binary64
  | real x => some x
  | _ => none

/-- A count, which fits into 64 bits. -/
def count? : Datum → Option UInt64
  | whole n => if 0 ≤ n ∧ n < UInt64.size then some (UInt64.ofNat n.toNat) else none
  | _ => none

/-- A number of an enum, which fits into 64 bits with a sign. -/
def number? : Datum → Option Int64
  | whole n =>
    if Int64.minValue.toInt ≤ n ∧ n ≤ Int64.maxValue.toInt then some (Int64.ofInt n) else none
  | _ => none

def node? : Datum → Option Schema
  | node schema => some schema
  | _ => none

def boxedNode? : Datum → Option Schema
  | boxed value => value.node?
  | _ => none

def registry? : Datum → Option Registry
  | registry entries => some entries
  | _ => none

/-- The items of a vector, all of one kind. -/
def vector? {α : Type} (item? : Datum → Option α) : Datum → Option (List α)
  | vector items => items.mapM item?
  | _ => none

/-- A key with a node. -/
def entry? : Datum → Option (String × Schema)
  | pair (text key) (node schema) => some (key, schema)
  | _ => none

end Datum

/-- The fields of a node: the name of each, and what setting it does. The reference and the registry
are not set by name in an emitted module. -/
def setters : List (String × (Datum → Schema → Option Schema)) :=
  [("instance_type", fun v node => (v.given?.bind (·.type?)).map ({ node with type := some · })),
   ("title", fun v node => (v.given?.bind (·.text?)).map ({ node with title := some · })),
   ("description", fun v node => (v.given?.bind (·.text?)).map ({ node with description := some · })),
   ("format", fun v node => (v.given?.bind (·.text?)).map ({ node with format := some · })),
   ("pattern", fun v node => (v.given?.bind (·.text?)).map ({ node with pattern := some · })),
   ("content_encoding", fun v node =>
     (v.given?.bind (·.text?)).map ({ node with contentEncoding := some · })),
   ("content_media_type", fun v node =>
     (v.given?.bind (·.text?)).map ({ node with contentMediaType := some · })),
   ("min_length", fun v node => (v.given?.bind (·.count?)).map ({ node with minLength := some · })),
   ("max_length", fun v node => (v.given?.bind (·.count?)).map ({ node with maxLength := some · })),
   ("min_items", fun v node => (v.given?.bind (·.count?)).map ({ node with minItems := some · })),
   ("max_items", fun v node => (v.given?.bind (·.count?)).map ({ node with maxItems := some · })),
   ("min_properties", fun v node =>
     (v.given?.bind (·.count?)).map ({ node with minProperties := some · })),
   ("max_properties", fun v node =>
     (v.given?.bind (·.count?)).map ({ node with maxProperties := some · })),
   ("minimum", fun v node => (v.given?.bind (·.bound?)).map ({ node with minimum := some · })),
   ("maximum", fun v node => (v.given?.bind (·.bound?)).map ({ node with maximum := some · })),
   ("exclusive_minimum", fun v node =>
     (v.given?.bind (·.bound?)).map ({ node with exclusiveMinimum := some · })),
   ("exclusive_maximum", fun v node =>
     (v.given?.bind (·.bound?)).map ({ node with exclusiveMaximum := some · })),
   ("enum_values", fun v node => (v.vector? (·.number?)).map ({ node with enumValues := · })),
   ("unique_items", fun v node => (v.given?.bind (·.truth?)).map ({ node with uniqueItems := some · })),
   ("items", fun v node => (v.given?.bind (·.boxedNode?)).map ({ node with items := some · })),
   ("properties", fun v node => v.registry?.map ({ node with properties := · })),
   ("required", fun v node => (v.vector? (·.text?)).map ({ node with required := · })),
   ("additional_properties", fun v node =>
     (v.given?.bind (·.boxedNode?)).map ({ node with additionalProperties := some · })),
   ("property_names", fun v node =>
     (v.given?.bind (·.boxedNode?)).map ({ node with propertyNames := some · })),
   ("one_of", fun v node => (v.vector? (·.node?)).map ({ node with oneOf := · })),
   ("all_of", fun v node => (v.vector? (·.node?)).map ({ node with allOf := · }))]

/-- The node with a field set. -/
def assign (field : String × Datum) (node : Schema) : Option Schema :=
  (setters.lookup field.1).bind fun set => set field.2 node

/-- The node with several fields set, none of them twice. -/
def assignAll (fields : List (String × Datum)) (node : Schema) : Option Schema :=
  if (fields.map (·.1)).Nodup then fields.foldlM (fun node field => assign field node) node else none

/-! ### Variables -/

/-- The registry in a variable, owned or borrowed. -/
def Locals.registry? (locals : Locals) (name : String) : Option Registry :=
  match locals.lookup name with
  | some (.registry entries) | some (.borrowed entries) => some entries
  | _ => none

/-- The variables with another registry in one of them. -/
def Locals.setRegistry (name : String) (entries : Registry) : Locals → Locals
  | [] => []
  | (other, value) :: rest =>
    if other = name then
      match value with
      | .borrowed _ => (other, .borrowed entries) :: rest
      | _ => (other, .registry entries) :: rest
    else (other, value) :: setRegistry name entries rest

/-- The value of a variable. What has been lent to the function is lent further. -/
def Locals.value? (locals : Locals) (name : String) : Option Datum :=
  match locals.lookup name with
  | some (.borrowed _) => some (.place name)
  | value => value

/-- An owned registry is lent. -/
def Locals.lend? (locals : Locals) (name : String) : Option Datum :=
  match locals.lookup name with
  | some (.registry _) => some (.place name)
  | _ => none

/-! ### Expressions -/

/-- The type that a name stands for. -/
def typeOf? (name : String) : Option PrimitiveType :=
  [("Array", .array), ("Boolean", .boolean), ("Integer", .integer), ("Null", .null),
    ("Number", .number), ("Object", .object), ("String", PrimitiveType.string)].lookup name

/-- The value of a name. -/
def valueOfPath (locals : Locals) : List String → Option Datum
  | [name] => locals.value? name
  | ["InstanceType", name] => (typeOf? name).map .type
  | _ => none

/-- The negative of a number. -/
def negate : Datum → Option Datum
  | .whole n => some (.whole (-n))
  | .real x => some (.real x.neg)
  | _ => none

/-- A function of a module: from a registry to a node and the registry afterwards. -/
abbrev Routine := Registry → Option (Schema × Registry)

/-- The result of a function on its arguments. Every function of the module takes the place of a
registry. -/
def apply (builders : String → Routine) : List String → List Datum → Locals → Option (Datum × Locals)
  | [function], [.place name], locals => do
    let entries ← locals.registry? name
    let (node, entries) ← builders function entries
    return (.node node, locals.setRegistry name entries)
  | ["Some"], [value], locals => some (.given value, locals)
  | ["Box", "new"], [value], locals => some (.boxed value, locals)
  | ["Definitions", "new"], [], locals => some (.registry [], locals)
  | ["Schema", "default"], [], locals => some (.node .blank, locals)
  | ["Schema", "reference"], [.slice name], locals => some (.node (.reference name), locals)
  | ["Schema", "root_reference"], [.slice name, .registry entries], locals =>
    some (.node (.rootReference name entries), locals)
  | _, _, _ => none

/-- The result of a method that leaves its receiver alone. -/
def applyMethod : Datum → String → List Datum → Option Datum
  | .slice s, "to_string", [] => some (.text s)
  | .array items, "into_iter", [] => some (.sequence items)
  | .sequence items, "collect", [] => (items.mapM Datum.entry?).map fun entries =>
    .registry (Dictionary.ofList entries)
  | _, _, _ => none

/-- The result of a method of a registry. -/
def applyToRegistry (name : String) (locals : Locals) (entries : Registry) :
    String → List Datum → Option (Datum × Locals)
  | "contains_key", [.slice key] => some (.truth (entries.contains key), locals)
  | "insert", [.text key, .node node] =>
    some (.unit, locals.setRegistry name (entries.insert key node))
  | _, _ => none

mutual

/-- The value of an expression, with the variables afterwards. -/
def eval (builders : String → Routine) : Expression → Locals → Option (Datum × Locals)
  | .text s, locals => some (.slice s, locals)
  | .whole n, locals => some (.whole n, locals)
  | .real x, locals => some (.real x, locals)
  | .truth b, locals => some (.truth b, locals)
  | .path names, locals => (valueOfPath locals names).map (·, locals)
  | .lent name, locals => (locals.lend? name).map (·, locals)
  | .negated value, locals => do
    let (value, locals) ← eval builders value locals
    return (← negate value, locals)
  | .call function arguments, locals => do
    let (values, locals) ← evalAll builders arguments locals
    apply builders function values locals
  | .method (.path [name]) method arguments, locals => do
    let (values, locals) ← evalAll builders arguments locals
    let entries ← locals.registry? name
    applyToRegistry name locals entries method values
  | .method receiver method arguments, locals => do
    let (value, locals) ← eval builders receiver locals
    let (values, locals) ← evalAll builders arguments locals
    return (← applyMethod value method values, locals)
  | .pair first second, locals => do
    let (first, locals) ← eval builders first locals
    let (second, locals) ← eval builders second locals
    return (.pair first second, locals)
  | .array items, locals => do
    let (items, locals) ← evalAll builders items locals
    return (.array items, locals)
  | .vector items, locals => do
    let (items, locals) ← evalAll builders items locals
    return (.vector items, locals)
  | .record type fields base, locals => do
    let (values, locals) ← evalFields builders fields locals
    let (base, locals) ← eval builders base locals
    match type, base with
    | "Schema", .node node => return (.node (← assignAll values node), locals)
    | _, _ => none

/-- The values of several expressions. -/
def evalAll (builders : String → Routine) : List Expression → Locals → Option (List Datum × Locals)
  | [], locals => some ([], locals)
  | item :: rest, locals => do
    let (value, locals) ← eval builders item locals
    let (values, locals) ← evalAll builders rest locals
    return (value :: values, locals)

/-- The values of several fields. -/
def evalFields (builders : String → Routine) :
    List (String × Expression) → Locals → Option (List (String × Datum) × Locals)
  | [], locals => some ([], locals)
  | (name, item) :: rest, locals => do
    let (value, locals) ← eval builders item locals
    let (values, locals) ← evalFields builders rest locals
    return ((name, value) :: values, locals)

end

attribute [simp] eval evalAll evalFields

/-! ### Functions -/

/-- Statements in turn, then the value that is returned. -/
def runBody (builders : String → Routine) (result : Expression) :
    List Statement → Locals → Option (Datum × Locals)
  | [], locals => eval builders result locals
  | .bind none value :: rest, locals => do
    let (_, locals) ← eval builders value locals
    runBody builders result rest locals
  | .bind (some name) value :: rest, locals => do
    let (value, locals) ← eval builders value locals
    runBody builders result rest ((name, value) :: locals)
  | .perform value :: rest, locals => do
    let (_, locals) ← eval builders value locals
    runBody builders result rest locals
  | .returnIf condition value :: rest, locals => do
    match ← eval builders condition locals with
    | (.truth true, locals) => eval builders value locals
    | (.truth false, locals) => runBody builders result rest locals
    | _ => none

/-- A function that is given a registry. -/
def Function.call (builders : String → Routine) (function : Function) : Routine := fun entries => do
  let parameter ← function.parameter
  let (value, locals) ← runBody builders function.result function.body
    [(parameter, .borrowed entries)]
  return (← value.node?, ← locals.registry? parameter)

/-- The function of a name. -/
def find? (functions : List Function) (name : String) : Option Function :=
  functions.find? (·.name = name)

/-- What calling a function of a module does, if calls nest no deeper than a bound. -/
def callAt (functions : List Function) : ℕ → String → Routine
  | 0, _, _ => none
  | depth + 1, name, entries => do
    let function ← find? functions name
    function.call (callAt functions depth) entries

/-- What a function of a module returns that is given nothing, if calls nest no deeper than a
bound. -/
def invoke (functions : List Function) (depth : ℕ) (name : String) : Option Schema := do
  let function ← find? functions name
  match function.parameter with
  | some _ => none
  | none =>
    let (value, _) ← runBody (callAt functions depth) function.result function.body []
    value.node?

end MessageSchema.Program
