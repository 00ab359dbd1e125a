import BlockScript.Token.Kind

/-!
# Storage classes of variables
-/

namespace BlockScript

/-- The storage class of a declared variable. -/
inductive Scope
  | global | local_ | var
  deriving DecidableEq, Repr, Inhabited

namespace Scope

/-- The word that opens a declaration of this class. -/
def keyword : Scope → Keyword
  | global => .global
  | local_ => .local_
  | var => .var

/-- The class's keyword as a string. -/
def name (scope : Scope) : String := String.ofList scope.keyword.letters

/-- The class's name at the start of a sentence. -/
def title : Scope → String
  | global => "Global"
  | local_ => "Local"
  | var => "Var"

/-- A `local` variable never takes an initial value; the others must have one. -/
def needsValue : Scope → Bool
  | local_ => false
  | global | var => true

end Scope

end BlockScript
