import MessageSchema.Command.Arguments
import MessageSchema.Command.Check
import MessageSchema.Command.List
import MessageSchema.Command.Show
import Std.Time.DateTime.Timestamp

/-!
# The program

Runs the command that the arguments ask for on the files of the machine. What a command prints goes
to standard output, and why it failed to standard error.

## Main definitions

* `machineDisk`: the operations on the files of the machine.
* `main`: the program.
-/

namespace MessageSchema

/-- The error of an operation on the files of the machine, by its code. -/
def DiskError.ofError (error : IO.Error) : DiskError :=
  match error with
  | .noFileOrDirectory _ _ _ => .noEntry
  | .alreadyExists _ _ _ => .exists
  | .inappropriateType _ code _ =>
    if code = 21 || code + 21 = 0 then .isDirectory else .notDirectory
  | error => .other (toString error)

/-- The result of an operation on the files of the machine. -/
def attempt {α : Type} (operation : IO α) : IO (Except DiskError α) := do
  try return .ok (← operation)
  catch error => return .error (.ofError error)

/-- The operations on the files of the machine. Directories are not listed: it is for the shell to
expand patterns. -/
def machineDisk : Disk IO where
  isThere path := return (← attempt (IO.FS.realPath path.text)).toOption.isSome
  isDirectory path := return (← attempt (IO.FS.realPath (path.text ++ "/."))).toOption.isSome
  read path := attempt (IO.FS.readFile path.text)
  entries _ := return .error (.other "directories cannot be listed")
  createDirectory path := attempt (IO.FS.createDir path.text)
  write path content := attempt (IO.FS.writeFile path.text content)
  rename source target := attempt (IO.FS.rename source.text target.text)
  remove path := attempt (IO.FS.removeFile path.text)

/-- Seconds since the beginning of 1970. -/
def currentTime : IO Int :=
  return (← Std.Time.Timestamp.now).toSecondsSinceUnixEpoch.val

/-- Runs a request. -/
def Request.run : Request → IO Outcome
  | .help => return .ofLines usage
  | .version => return .ofLines [({} : Settings).version]
  | .check input => Command.check machineDisk input
  | .list input asJson => Command.list machineDisk input asJson
  | .showMessage input typeName compact => Command.showMessage machineDisk input typeName compact
  | .generate inputs options recordsTime => do
    let generatedOn ← if recordsTime then some <$> currentTime else pure none
    Command.generate machineDisk inputs { options with generatedOn }

end MessageSchema

open MessageSchema in
/-- The program. Its exit code is 2 if the arguments ask for nothing and 1 if the command fails. -/
def main (arguments : List String) : IO UInt32 := do
  match Request.ofArguments arguments with
  | .error error =>
    (← IO.getStderr).putStrLn ("error: " ++ error.message)
    return 2
  | .ok request =>
    let outcome ← request.run
    (← IO.getStdout).putStr outcome.printed
    match outcome.failure with
    | none => return 0
    | some failure =>
      (← IO.getStderr).putStrLn ("Error: " ++ failure)
      return 1
