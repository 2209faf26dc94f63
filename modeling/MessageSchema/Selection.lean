import MessageSchema.Overlay.Resolve
import MessageSchema.Pool

/-!
# Selection of messages

Which messages get a schema. A selected message takes with it every message that its fields refer to
and every message nested in it, so that no reference is left open. Each message comes in front of
those it takes with it. The entries of map fields are described by the field and never selected.

## Main definitions

* `Selection.shouldGenerate`: whether a message asks to be selected.
* `Selection.dependencies`: the messages that the fields of a message refer to.
* `Selection.select`: the selected messages, and the names that have been visited.
-/

namespace MessageSchema.Selection

/-- A message that may be selected: with the default for messages without options, and whether
another message needs it. -/
structure Candidate where
  message : Message
  default : Bool
  forced : Bool

/-- Names that have been visited and messages that have been selected, the last of them first. -/
structure State where
  visited : List String
  selected : List Message

/-- Whether a candidate is to be selected. A needed message cannot opt out. -/
def shouldGenerate (candidate : Candidate) : Except SchemaError Bool := do
  match ← candidate.message.options with
  | some options =>
    return if candidate.forced && !options.generate then candidate.default else options.generate
  | none => return candidate.default

/-- The message that a field refers to, if it refers to one. A map field refers to the type of its
values. -/
def dependency? (pool : Pool) (owner : Message) (field : Field) :
    Except SchemaError (Option Message) := do
  if !field.kind.isMessage then return none
  else if field.isMap then
    let (entry, _, value) ← pool.entryFields owner field
    if value.kind.isMessage then return some (← pool.referenced entry value) else return none
  else return some (← pool.referenced owner field)

/-- The messages that several fields refer to. -/
def dependenciesOf (pool : Pool) (owner : Message) : List Field → Except SchemaError (List Message)
  | [] => .ok []
  | field :: rest => do
    let first ← dependency? pool owner field
    let others ← dependenciesOf pool owner rest
    return first.toList ++ others

/-- The messages that the fields of a message refer to. -/
def dependencies (pool : Pool) (message : Message) : Except SchemaError (List Message) :=
  dependenciesOf pool message message.fields

/-- The first candidate that is to be selected and has not been visited, and the candidates behind
it. -/
def next? (visited : List String) :
    List Candidate → Except SchemaError (Option (Message × List Candidate))
  | [] => .ok none
  | candidate :: rest =>
    if candidate.message.mapEntry then next? visited rest
    else do
      if (← shouldGenerate candidate) && !visited.contains candidate.message.fullName then
        return some (candidate.message, rest)
      else next? visited rest

/-- A message that another one needs. -/
def needed (message : Message) : Candidate :=
  ⟨message, true, true⟩

/-- Selects candidate by candidate. What a selected message takes with it comes in front of the
candidates that are left. -/
def run (pool : Pool) : Nat → List Candidate → State → State × Except SchemaError Unit
  | 0, _, state => (state, .ok ())
  | budget + 1, candidates, state =>
    match next? state.visited candidates with
    | .error error => (state, .error error)
    | .ok none => (state, .ok ())
    | .ok (some (message, rest)) =>
      let state : State := ⟨message.fullName :: state.visited, message :: state.selected⟩
      match dependencies pool message with
      | .error error => (state, .error error)
      | .ok found => run pool budget (found.map needed ++ message.nested.map needed ++ rest) state

/-- The names that can be visited, each once. -/
def reachableNames (pool : Pool) (candidates : List Message) : List String :=
  ((Message.allWithNested (candidates ++ pool.messages)).map (·.fullName)).eraseDups

/-- Selects from several messages, given the names that have been visited before. The names that are
visited are returned even if the selection fails. Every step but the last visits a new name, so that
one step more than there are names suffices. -/
def select (pool : Pool) (candidates : List Message) (default : Bool) (visited : List String) :
    List String × Except SchemaError (List Message) :=
  let names := (reachableNames pool candidates).filter (!visited.contains ·)
  let (state, result) :=
    run pool (names.length + 1) (candidates.map (⟨·, default, false⟩)) ⟨visited, []⟩
  (state.visited, result.map fun _ => state.selected.reverse)

end MessageSchema.Selection
