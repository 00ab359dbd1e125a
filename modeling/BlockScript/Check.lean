import BlockScript.Compile
import BlockScript.Storage.Directory

/-!
# Checking a script

A check reads a script from storage, compiles it and gives the text to show. On demand it dumps
the tokens and the tree next to the script, each as soon as it is known: the dump of the tokens
is there also when the program then turns out to be wrong.
-/

namespace BlockScript

/-- What to check, and how. -/
structure CheckOptions where
  /-- The path of the script, by which reports name it. -/
  file : String
  emit : Emit
  form : PrintForm
  /-- Whether the tokens and the tree are dumped. -/
  dumps : Bool
  deriving DecidableEq, Repr, Inhabited

/-- The result of a check. -/
structure Checked where
  /-- The text to show. -/
  output : String
  /-- The paths of the dumps, in the order in which they were written. -/
  written : List String
  deriving DecidableEq, Repr, Inhabited

section

variable {m : Type → Type} [Monad m]

/-- Reads a script. -/
def Storage.script (storage : Storage m) (path : String) : ExceptT Failure m String :=
  ExceptT.mk ((Except.mapError Failure.storage) <$> storage.read path)

/-- Writes a dump next to a script, if dumps are wanted, and gives the paths written. -/
def Storage.dump (storage : Storage m) (options : CheckOptions) (kind : String) (value : Json) :
    ExceptT Failure m (List String) :=
  if options.dumps then do
    let path := dumpPath kind options.file
    ExceptT.mk ((Except.mapError Failure.storage) <$> storage.write path value.pretty)
    pure [path]
  else
    pure []

/-- Checks a script in storage. -/
def check (storage : Storage m) (options : CheckOptions) : ExceptT Failure m Checked := do
  let source ← storage.script options.file
  let tokens ← ExceptT.mk (pure (lexSource source options.file))
  let first ← storage.dump options "tokens" (tokensToJson tokens)
  let compiled ← ExceptT.mk (pure (compileTokens tokens source options.file))
  let second ← storage.dump options "ast" (programToJson compiled.program)
  pure ⟨compiled.output options.emit options.form, first ++ second⟩

end

end BlockScript
