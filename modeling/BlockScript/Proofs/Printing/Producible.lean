import BlockScript.Printer.Program
import BlockScript.Proofs.Lexical.Spelling
import BlockScript.Proofs.Syntax.Grammar

/-!
# Trees that can be printed

A tree is producible if all that it holds can be spelled and stands where the grammar has a place
for it. Its depth is the number of levels that its printed form opens at once: every list of
arguments, index, array, object, block, `elif` link and loop step opens one, and so do the
parentheses that the printer puts around an operand.
-/

namespace BlockScript

/-- The numbers that a numeral can stand for. -/
structure Binary64.IsLiteral (x : Binary64) : Prop where
  finite : x.isFinite
  positive : x.negative = false

/-- There is a quote that the text does not hold. -/
def IsQuotable (content : List Char) : Prop := '"' ∉ content ∨ '\'' ∉ content

/-- Whether the expression is a name or a call with member accesses and selectors behind it. -/
def Expr.isAccess : Expr → Bool
  | .name _ | .call .. | .member .. | .selected .. => true
  | _ => false

theorem Expr.isAccess_of_isPlace {expr : Expr} (place : expr.isPlace) : expr.isAccess := by
  cases expr <;> first | rfl | contradiction

/-! ## What can be spelled -/

mutual

/-- All that the expression holds can be spelled, and accesses are made of accesses. -/
def Expr.Producible : Expr → Prop
  | .number x => x.IsLiteral
  | .text content => IsQuotable content.toList
  | .name word => IsName word.toList
  | .selector target => IsTarget target.toList
  | .member value index => value.isAccess ∧ value.Producible ∧ index.Producible
  | .selected value target => value.isPlace ∧ value.Producible ∧ IsTarget target.toList
  | .binary _ left right => left.Producible ∧ right.Producible
  | .call callee arguments => IsName callee.toList ∧ Expr.AllProducible arguments
  | .array elements => Expr.AllProducible elements
  | .object entries => Expr.EntriesProducible entries

def Expr.AllProducible : List Expr → Prop
  | [] => True
  | expr :: others => expr.Producible ∧ Expr.AllProducible others

def Expr.EntriesProducible : List (Entry Expr) → Prop
  | [] => True
  | ⟨key, value⟩ :: others =>
      key.Producible ∧ value.Producible ∧ Expr.EntriesProducible others

end

structure Assignment.Producible (assignment : Assignment) : Prop where
  place : assignment.target.isPlace
  target : assignment.target.Producible
  value : assignment.value.Producible

mutual

/-- All that the statement holds can be spelled, and its parts are there that its form needs. -/
def Statement.Producible : Statement → Prop
  | .declaration scope name value? =>
      IsName name.toList ∧ scope.Takes value? ∧ ∀ value ∈ value?, value.Producible
  | .function name parameters body =>
      IsName name.toList ∧ (∀ parameter ∈ parameters, IsName parameter.toList) ∧
        Statement.AllProducible body
  | .returning values => Expr.AllProducible values
  | .conditional chain => chain.Producible
  | .loop start step condition body =>
      start.Producible ∧ step.Producible ∧ step ≠ .returning [] ∧ condition.Producible ∧
        Statement.AllProducible body
  | .each name collection body =>
      IsName name.toList ∧ collection.Producible ∧ Statement.AllProducible body
  | .range start stop name body =>
      start.IsLiteral ∧ stop.IsLiteral ∧ IsName name.toList ∧ Statement.AllProducible body
  | .assignment assignment => assignment.Producible
  | .expression expr => expr.Producible

def Conditional.Producible : Conditional → Prop
  | .only condition body => condition.Producible ∧ Statement.AllProducible body
  | .otherwise condition body other =>
      condition.Producible ∧ Statement.AllProducible body ∧ Statement.AllProducible other
  | .elif condition body next =>
      condition.Producible ∧ Statement.AllProducible body ∧ next.Producible

def Statement.AllProducible : Block → Prop
  | [] => True
  | statement :: others => statement.Producible ∧ Statement.AllProducible others

end

/-! ## How many levels are opened -/

mutual

/-- The number of levels that the printed expression opens at once. -/
def Expr.depth : Expr → Nat
  | .number _ | .text _ | .name _ | .selector _ => 0
  | .member value index => max value.depth (index.depth + 1)
  | .selected value _ => value.depth
  | .binary operator left right =>
      max (left.depth + (left.needsGroupLeftOf operator).toNat)
        (right.depth + (right.needsGroupRightOf operator).toNat)
  | .call _ arguments => Expr.depthOfAll arguments + 1
  | .array elements => Expr.depthOfAll elements + 1
  | .object entries => Expr.depthOfEntries entries + 1

def Expr.depthOfAll : List Expr → Nat
  | [] => 0
  | expr :: others => max expr.depth (Expr.depthOfAll others)

def Expr.depthOfEntries : List (Entry Expr) → Nat
  | [] => 0
  | ⟨key, value⟩ :: others => max (max key.depth value.depth) (Expr.depthOfEntries others)

end

def Assignment.depth (assignment : Assignment) : Nat :=
  max assignment.target.depth assignment.value.depth

mutual

/-- The number of levels that the printed statement opens at once. -/
def Statement.depth : Statement → Nat
  | .declaration _ _ value? => (value?.map Expr.depth).getD 0
  | .function _ _ body => Statement.depthOfAll body + 1
  | .returning values => Expr.depthOfAll values
  | .conditional chain => chain.depth
  | .loop start step condition body =>
      max (max start.depth (step.depth + 1)) (max condition.depth (Statement.depthOfAll body + 1))
  | .each _ collection body => max collection.depth (Statement.depthOfAll body + 1)
  | .range _ _ _ body => Statement.depthOfAll body + 1
  | .assignment assignment => assignment.depth
  | .expression expr => expr.depth

def Conditional.depth : Conditional → Nat
  | .only condition body => max condition.depth (Statement.depthOfAll body + 1)
  | .otherwise condition body other =>
      max condition.depth (max (Statement.depthOfAll body + 1) (Statement.depthOfAll other + 1))
  | .elif condition body next =>
      max (max condition.depth (Statement.depthOfAll body + 1)) (next.depth + 1)

def Statement.depthOfAll : Block → Nat
  | [] => 0
  | statement :: others => max statement.depth (Statement.depthOfAll others)

end

/-! ## Lists -/

namespace Expr

theorem allProducible_iff {exprs : List Expr} :
    AllProducible exprs ↔ ∀ expr ∈ exprs, expr.Producible := by
  induction exprs with
  | nil => simp [AllProducible]
  | cons expr others ih => simp [AllProducible, ih]

theorem entriesProducible_iff {entries : List (Entry Expr)} :
    EntriesProducible entries ↔ ∀ entry ∈ entries, entry.key.Producible ∧ entry.value.Producible := by
  induction entries with
  | nil => simp [EntriesProducible]
  | cons entry others ih => simp [EntriesProducible, ih, and_assoc]

theorem depthOfAll_le_iff {exprs : List Expr} {room : Nat} :
    depthOfAll exprs ≤ room ↔ ∀ expr ∈ exprs, expr.depth ≤ room := by
  induction exprs with
  | nil => simp [depthOfAll]
  | cons expr others ih => rw [depthOfAll, Nat.max_le, ih, List.forall_mem_cons]

theorem depthOfEntries_le_iff {entries : List (Entry Expr)} {room : Nat} :
    depthOfEntries entries ≤ room ↔
      ∀ entry ∈ entries, entry.key.depth ≤ room ∧ entry.value.depth ≤ room := by
  induction entries with
  | nil => simp [depthOfEntries]
  | cons entry others ih => rw [depthOfEntries, Nat.max_le, Nat.max_le, ih, List.forall_mem_cons]

end Expr

end BlockScript
