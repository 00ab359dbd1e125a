import BlockScript.CommandLine.Run

/-!
# The program

Connects the command line to the real file system and to the process: reads and writes files,
shows the texts of the run and hands over its exit status.
-/

namespace BlockScript

/-- The fault that an error of the file system is. Error 20 is a file in the place of a
directory, while the other errors of its class are a directory in the place of a file. Error 36
is a name that is too long. -/
def StorageFault.ofError : IO.Error → StorageFault
  | .noFileOrDirectory .. => .missing
  | .inappropriateType _ code _ => if code = 20 then .notDirectory else .isDirectory
  | .invalidArgument _ 36 _ => .nameTooLong
  | .permissionDenied _ code details => .other (details ++ " (os error " ++ toString code ++ ")")
  | error => .other (toString error)

/-- Runs an action on the file system, with its errors as faults. -/
def attempt {α : Type} (action : IO α) : IO (Except StorageFault α) := do
  match ← action.toBaseIO with
  | .ok value => pure (.ok value)
  | .error error => pure (.error (.ofError error))

/-- The real file system. -/
def fileStorage : Storage IO where
  read path := do
    match ← attempt (do (← IO.FS.Handle.mk path .read).readBinToEnd) with
    | .error fault => pure (.error fault)
    | .ok content =>
        match String.fromUTF8? content with
        | none => pure (.error .notText)
        | some text => pure (.ok text)
  write path text := attempt (IO.FS.writeFile path text)

/-- How an action ended. An error that it did not handle has stopped it. -/
def endingOf {α : Type} (action : IO α) : IO (Ending α) := do
  match ← action.toBaseIO with
  | .ok value => pure (.done value)
  | .error error => pure (.stopped (some (toString error)) none "")

/-- Runs what the arguments ask for. -/
def runInvocation (terminal : Bool) (invocation : Invocation) : IO Run := do
  match (← endingOf (Run.ofInvocation fileStorage terminal invocation)).result with
  | .ok run => pure run
  | .error failure => pure (.ofFailure (.ofFlag terminal) failure)

end BlockScript

/-- The entry point of the program. -/
def main (arguments : List String) : IO UInt32 := do
  let messages ← IO.getStderr
  let run ← BlockScript.runInvocation (← messages.isTty) (.ofArguments arguments)
  messages.putStr run.messages
  (← IO.getStdout).putStr run.output
  return run.status.toUInt32
