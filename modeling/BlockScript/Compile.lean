import BlockScript.Failure
import BlockScript.Json.Tree
import BlockScript.Parser.Program
import BlockScript.Printer.Program

/-!
# Compiling

Compiling a source gives its tokens and its program. What is shown of them is up to the caller:
the tree or the tokens as JSON, or the program printed anew.
-/

namespace BlockScript

/-- What a run shows of a compiled source. -/
inductive Emit
  | tree | source | tokens
  deriving DecidableEq, Repr, Inhabited

/-- A source that has passed both stages. -/
structure Compiled where
  tokens : List Token
  program : Program
  deriving Inhabited

/-- The failure that a fault in this source is. -/
def Fault.failure (source file : String) (fault : Fault) : Failure :=
  .compile fault.diagnostic source file

/-- The tokens of a source. -/
def lexSource (source file : String) : Except Failure (List Token) :=
  (tokenize source).mapError (Fault.failure source file)

/-- The compiled source that these tokens give. -/
def compileTokens (tokens : List Token) (source file : String) : Except Failure Compiled :=
  ((parseTokens tokens).map (Compiled.mk tokens)).mapError (Fault.failure source file)

/-- Compiles a source; reports name its file. -/
def compile (source file : String) : Except Failure Compiled := do
  compileTokens (← lexSource source file) source file

/-- JSON in one of the two printed forms. -/
def Json.write (form : PrintForm) (value : Json) : String :=
  match form with
  | .pretty => value.pretty
  | .compact => value.compact

/-- What is shown of a compiled source. -/
def Compiled.output (compiled : Compiled) (emit : Emit) (form : PrintForm) : String :=
  match emit with
  | .tree => (programToJson compiled.program).write form
  | .source => printProgram form compiled.program
  | .tokens => (tokensToJson compiled.tokens).write form

end BlockScript
