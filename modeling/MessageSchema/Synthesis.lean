import MessageSchema.Shape

/-!
# Schemas of a message and of all it refers to

A registry is filled with the schema of a message and with the schemas of all messages that it
refers to, directly or not. A message is registered under a placeholder as soon as it is met, and
completed when everything that it refers to has been dealt with; a message that is registered is
not visited again, which is why references in a circle come to an end. If a message fails, the
placeholders stay.

## Main definitions

* `Synthesis.fill`: the registry with a message and all it refers to.
* `Synthesis.root`: a reference to a message that carries all it refers to.
-/

namespace MessageSchema.Synthesis

/-- What is left to do: to register a message, or to complete one. -/
inductive Task where
  | register (name : String)
  | complete (name : String) (shape : Schema)

/-- Completes messages up to the first that has to be registered, which is returned with the tasks
behind it. -/
def settle : List Task → Registry → Registry × Option (String × List Task)
  | [], registry => (registry, none)
  | .complete name shape :: rest, registry => settle rest (registry.insert name shape)
  | .register name :: rest, registry =>
    if registry.contains name then settle rest registry else (registry, some (name, rest))

/-- Carries out tasks. What a message refers to comes between its registration and its
completion. -/
def run (pool : Pool) (selected : List String) :
    Nat → List Task → Registry → Registry × Except SchemaError Unit
  | 0, _, registry => (registry, .ok ())
  | budget + 1, tasks, registry =>
    match settle tasks registry with
    | (registry, none) => (registry, .ok ())
    | (registry, some (name, rest)) =>
      match pool.message? name with
      | none => (registry, .error (.unknownType name))
      | some message =>
        let registry := registry.insert name .blank
        match Shape.ofMessage pool selected message with
        | .error error => (registry, .error error)
        | .ok shape =>
          run pool selected budget
            (shape.referencedNames.map .register ++ .complete name shape :: rest) registry

/-- The names that can be registered, each once. -/
def reachableNames (pool : Pool) (name : String) : List String :=
  (name :: pool.messages.map (·.fullName)).eraseDups

/-- The registry with a message and all it refers to. What is registered already stays as it is.
Every step but the last registers a new name, so that one step more than there are names
suffices. -/
def fill (pool : Pool) (selected : List String) (name : String) (registry : Registry) :
    Registry × Except SchemaError Unit :=
  let names := (reachableNames pool name).filter (!registry.contains ·)
  run pool selected (names.length + 1) [.register name] registry

/-- A reference to a message, together with the registry in which the message is now found. -/
def withRegistry (pool : Pool) (selected : List String) (name : String) (registry : Registry) :
    Registry × Except SchemaError Schema :=
  let (registry, result) := fill pool selected name registry
  (registry, result.map fun _ => .reference name)

/-- A reference to a message that carries all it refers to. -/
def root (pool : Pool) (selected : List String) (name : String) : Except SchemaError Schema :=
  match fill pool selected name [] with
  | (registry, .ok ()) => .ok (.rootReference name registry)
  | (_, .error error) => .error error

end MessageSchema.Synthesis
