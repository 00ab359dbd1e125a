import BlockScript.CommandLine.Arguments

/-!
# Running the command line

A run gives an exit status and the texts for the two outputs: 0 for success, 1 for a failure of
the compiler, and 2 for wrong arguments.
-/

namespace BlockScript

/-- What a run of the command line leaves behind. -/
structure Run where
  status : Nat
  /-- The text for the standard output. -/
  output : String
  /-- The text for the standard error. -/
  messages : String
  deriving DecidableEq, Repr, Inhabited

/-- The name and the version of the program. -/
def versionLine : String := "blockscript 0.1.0\n"

/-- How the program is called. -/
def usageText : String :=
  "Usage: blockscript --file PATH [--debug] [--emit ast|source|tokens] [--compact]\n" ++
    "                   [--color auto|always|never] [-v|--verbose]... [-V|--version]\n"

namespace Run

/-- The run in which a check succeeded. -/
def ofChecked (checked : Checked) : Run :=
  ⟨0, checked.output ++ "\n", String.join (checked.written.map fun path => "wrote " ++ path ++ "\n")⟩

/-- The text on the standard error for a failure: reports end their last line themselves. -/
def failureText (style : Style) (failure : Failure) : String :=
  match failure with
  | .compile .. | .crash _ => failure.display style
  | .encoding _ | .storage _ => failure.display style ++ "\n"

/-- The run in which a check failed. -/
def ofFailure (style : Style) (failure : Failure) : Run := ⟨1, "", failureText style failure⟩

/-- The run that the result of a check gives. -/
def ofResult (style : Style) : Except Failure Checked → Run
  | .ok checked => ofChecked checked
  | .error failure => ofFailure style failure

/-- Runs what the arguments ask for; `terminal` tells whether reports go to a terminal. -/
def ofInvocation {m : Type → Type} [Monad m] (storage : Storage m) (terminal : Bool) :
    Invocation → m Run
  | .check options colour => do
      pure (ofResult (colour.style terminal) (← (BlockScript.check storage options).run))
  | .version => pure ⟨0, versionLine, ""⟩
  | .usage => pure ⟨0, usageText, ""⟩
  | .invalid => pure ⟨2, "", usageText⟩

end Run

end BlockScript
