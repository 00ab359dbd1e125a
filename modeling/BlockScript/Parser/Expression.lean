import BlockScript.Number.Layout
import BlockScript.Parser.Level

/-!
# Parsing expressions

An expression is a chain of operands and binary operators. `climb` folds such a chain: it
takes every operator that binds at least as tightly as asked, and gives it the rest of the
chain that binds tighter as its right operand. All other recursion of expressions goes through
brackets, and so to the level inside.
-/

namespace BlockScript

namespace Parser

/-- The finite number that a number token stands for. -/
def finiteNumber (token : Token) : Parser Binary64 :=
  match Binary64.ofText? token.content.toList with
  | none => fail (.numberUnreadable token.found) token.span
  | some x => if x.isFinite then pure x else fail .numberTooLarge token.span

/-- One entry of an object literal. -/
def entry (level : Level) : Parser (Entry Expr) := do
  let key ← level.expression 0
  let _ ← expect .afterKey
  let value ← level.expression 0
  pure ⟨key, value⟩

/-- The index of a member access and its closing bracket. -/
def memberIndex (level : Level) : Parser Expr := do
  let index ← level.expression 0
  let _ ← expect .closeMember
  pure index

/-- A group up to its closing parenthesis. -/
def group (level : Level) : Parser Expr := do
  let expr ← level.expression 0
  let _ ← expect .closeGroup
  pure expr

/-- The member accesses and selectors behind a value. Only a place can carry a selector. The
first argument bounds the number of suffixes. -/
def suffixes (nesting : Nesting) : Nat → Expr → Parser Expr
  | 0, value => pure value
  | bound + 1, value => do
      match ← accept? Symbol.openBracket with
      | some opening =>
          let index ← nesting.enter opening.span memberIndex
          suffixes nesting bound (.member value index)
      | none =>
          if value.isPlace then
            match ← accept? .selector with
            | some token => suffixes nesting bound (.selected value token.content)
            | none => pure value
          else
            pure value

/-- A name or a call of it, and the suffixes behind. -/
def access (nesting : Nesting) (name : String) : Parser Expr := do
  match ← accept? Symbol.openParen with
  | some opening =>
      let arguments ← nesting.enter opening.span fun level =>
        items (level.expression 0) .betweenArguments .closeArguments
      suffixes nesting (← remaining) (.call name arguments)
  | none => suffixes nesting (← remaining) (.name name)

/-- The value that starts with this token. -/
def valueAfter (nesting : Nesting) (token : Token) : Parser Expr :=
  match token.kind with
  | .number => do
      let x ← finiteNumber token
      pure (.number x)
  | .text => pure (.text token.content)
  | .selector => pure (.selector token.content)
  | .identifier => access nesting token.content
  | .symbol .openBracket => do
      let elements ← nesting.enter token.span fun level =>
        items (level.expression 0) .betweenElements .closeArray
      pure (.array elements)
  | .symbol .openCurly => do
      let entries ← nesting.enter token.span fun level =>
        items (entry level) .betweenEntries .closeObject
      pure (.object entries)
  | kind =>
      if kind.isPending then fail (.pending token.content) token.span
      else fail (.unexpected token.found) token.span

/-- A literal, an access, an array or an object. -/
def value (nesting : Nesting) : Parser Expr := do
  match ← take? with
  | none => blame .unexpected
  | some token => valueAfter nesting token

/-- An operand of a binary operator: a group or a value. -/
def operand (nesting : Nesting) : Parser Expr := do
  match ← accept? Symbol.openParen with
  | some opening => nesting.enter opening.span group
  | none => value nesting

/-- Folds the operators of precedence `least` or higher onto the operand on their left. The
first argument bounds the number of operators. -/
def climb (nesting : Nesting) : Nat → Nat → Expr → Parser Expr
  | 0, _, left => pure left
  | bound + 1, least, left => do
      match Operator.ofKind? (← peek) with
      | none => pure left
      | some operator =>
          if operator.precedence < least then
            pure left
          else
            skip
            let first ← operand nesting
            let right ← climb nesting bound (operator.precedence + 1) first
            climb nesting bound least (.binary operator left right)

/-- An expression whose outermost operators have precedence `least` or higher. -/
def expression (nesting : Nesting) (least : Nat) : Parser Expr := do
  let first ← operand nesting
  climb nesting (← remaining) least first

end Parser

end BlockScript
