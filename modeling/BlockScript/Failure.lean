import BlockScript.Report.Basic
import BlockScript.Storage.Basic

/-!
# Failures of the compiler

A run of the compiler fails when the program is wrong, when a file cannot be read or written,
when a dump cannot be encoded, or when the compiler itself is stopped by a defect.
-/

namespace BlockScript

/-- Why a run of the compiler gave no result. -/
inductive Failure
  /-- The program is wrong; its source and the name of its file belong to the report. -/
  | compile (diagnostic : Diagnostic) (source file : String)
  /-- A value cannot be encoded. -/
  | encoding (message : String)
  | storage (fault : StorageFault)
  | crash (crash : Crash)
  deriving Repr, Inhabited

namespace Failure

/-- What is shown of a failure. -/
def display (style : Style) : Failure → String
  | compile diagnostic source file => (diagnostic.report source file).show style
  | encoding message => "JSON error: " ++ message
  | storage fault => "IO error: " ++ fault.message
  | crash defect => defect.report.show style

/-- The text of what caused the failure, if that is an error of its own. -/
def cause? : Failure → Option String
  | compile diagnostic _ _ => some diagnostic.oneLine
  | encoding message => some message
  | storage fault => some fault.message
  | crash _ => none

end Failure

/-- How a guarded computation ended. -/
inductive Ending (α : Type)
  | done (value : α)
  | failed (failure : Failure)
  /-- A defect stopped it. -/
  | stopped (message? location? : Option String) (trace : String)

/-- The result of a guarded computation: being stopped is a failure like the others. -/
def Ending.result {α : Type} : Ending α → Except Failure α
  | done value => .ok value
  | failed failure => .error failure
  | stopped message? location? trace => .error (.crash (.stopped message? location? trace))

end BlockScript
