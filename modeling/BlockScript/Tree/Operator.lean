import BlockScript.Token.Kind

/-!
# Operators

Binary operators with their six levels of binding strength, and assignment operators. Each is
written with the letters of its tokens, so the tables here are between operators and lexical
categories, and texts come from the categories.
-/

namespace BlockScript

/-- Binary operators, from the loosest to the tightest. -/
inductive Operator
  | or | and
  | equal | notEqual
  | lessThan | lessEqual | greaterThan | greaterEqual | within
  | add | subtract
  | multiply | divide | modulo
  deriving DecidableEq, Repr, Inhabited

namespace Operator

/-- Every binary operator. -/
def all : List Operator :=
  [or, and, equal, notEqual, lessThan, lessEqual, greaterThan, greaterEqual, within,
    add, subtract, multiply, divide, modulo]

/-- The token that stands for the operator. -/
def kind : Operator → Kind
  | or => Symbol.orOr
  | and => Symbol.andAnd
  | equal => Symbol.equalsEquals
  | notEqual => Symbol.notEquals
  | lessThan => Symbol.lessThan
  | lessEqual => Symbol.lessEquals
  | greaterThan => Symbol.greaterThan
  | greaterEqual => Symbol.greaterEquals
  | within => Keyword.in_
  | add => Symbol.plus
  | subtract => Symbol.minus
  | multiply => Symbol.star
  | divide => Symbol.slash
  | modulo => Symbol.percent

/-- The operator that a token of category `kind` stands for between two operands. -/
def ofKind? (kind : Kind) : Option Operator := all.find? (·.kind == kind)

/-- Binding strength: operators of a higher level bind tighter. All lean to the left. -/
def precedence : Operator → Nat
  | or => 1
  | and => 2
  | equal | notEqual => 3
  | lessThan | lessEqual | greaterThan | greaterEqual | within => 4
  | add | subtract => 5
  | multiply | divide | modulo => 6

/-- The operator as it is written. -/
def spelling (operator : Operator) : String := operator.kind.spelling?.getD ""

theorem ofKind?_kind (operator : Operator) : ofKind? operator.kind = some operator := by
  cases operator <;> decide

theorem kind_of_ofKind? {kind : Kind} {operator : Operator}
    (known : ofKind? kind = some operator) : operator.kind = kind := by
  simpa using List.find?_some known

end Operator

/-- Assignment operators: `=` alone, and `=` behind an arithmetic operator. -/
inductive AssignOperator
  | assign | add | subtract | multiply | divide | modulo
  deriving DecidableEq, Repr, Inhabited

namespace AssignOperator

/-- Every assignment operator that computes with the old value. -/
def compounds : List AssignOperator := [add, subtract, multiply, divide, modulo]

/-- The symbol in front of the `=`, if there is one. -/
def operation? : AssignOperator → Option Symbol
  | assign => none
  | add => some .plus
  | subtract => some .minus
  | multiply => some .star
  | divide => some .slash
  | modulo => some .percent

/-- The assignment operator that a token of category `kind` makes of a `=` behind it. -/
def ofKind? (kind : Kind) : Option AssignOperator :=
  compounds.find? fun operator => operator.operation?.map Kind.symbol == some kind

/-- The symbols of the operator in their order. -/
def symbols (operator : AssignOperator) : List Symbol :=
  operator.operation?.toList ++ [.equals]

/-- The operator as it is written. -/
def spelling (operator : AssignOperator) : String :=
  String.ofList (operator.symbols.flatMap Symbol.letters)

end AssignOperator

end BlockScript
