import MessageSchema.Input.Load

/-!
# Outcomes of commands

A command prints lines and may fail; what it printed in front of a failure stays printed.

## Main definitions

* `Outcome`: what a command leaves behind.
* `Command.onInput`: a command on the descriptors of one input.
-/

namespace MessageSchema

/-- What a command leaves behind: the text that it printed, and why it failed if it did. -/
structure Outcome where
  printed : String
  failure : Option String := none
deriving DecidableEq, Inhabited

namespace Outcome

/-- The outcome of printing lines. -/
def ofLines (lines : List String) (failure : Option String := none) : Outcome :=
  ⟨String.join (lines.map (· ++ "\n")), failure⟩

/-- The outcome of a command that fails without printing. -/
def failed (reason : String) : Outcome :=
  ⟨"", some reason⟩

/-- The outcome with lines in front of what is printed. -/
def behind (lines : List String) (outcome : Outcome) : Outcome :=
  { outcome with printed := (ofLines lines).printed ++ outcome.printed }

end Outcome

namespace Command

/-- A command on the descriptors of one input. -/
def onInput {m : Type → Type} [Monad m] (disk : Disk m) (input : Path)
    (run : DescriptorSet → Outcome) : m Outcome := do
  match ← Input.load disk input with
  | .error error => return .failed error.message
  | .ok set => return run set

end Command

end MessageSchema
