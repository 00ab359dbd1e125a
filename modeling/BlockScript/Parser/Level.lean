import BlockScript.Parser.Stream
import BlockScript.Tree.Statement

/-!
# Levels of nesting

Brackets, blocks, `elif` links and loop steps open a level inside the current one, and only
so many levels may be open at once. A `Level` is the parsers that are available at one level.
The parsers of a level get those of the level inside it as a value, so that the recursion of
the grammar is a recursion on the number of levels that may still be opened. At the innermost
level there is no level inside, and opening one is the fault `tooDeep`.
-/

namespace BlockScript

/-- The parsers of one level of nesting. -/
structure Level where
  /-- An expression whose outermost operators have at least this precedence. -/
  expression : Nat → Parser Expr
  /-- A chain of conditions from its `if` or `elif` on. -/
  conditional : Parser Conditional
  statement : Parser Statement

/-- What a level knows of the levels inside it. -/
structure Nesting where
  /-- How many levels may be open at once. -/
  limit : Nat
  /-- The next level inside, unless all levels are open. -/
  inner? : Option Level

/-- Opens a level at the token with this span. -/
def Nesting.enter {α : Type} (nesting : Nesting) (span : Span) (parse : Level → Parser α) :
    Parser α :=
  match nesting.inner? with
  | none => .fail (.tooDeep nesting.limit) span
  | some level => parse level

end BlockScript
