import BlockScript.Number.Binary64
import BlockScript.Tree.Operator

/-!
# Expressions

The tree of an expression holds no positions and no parentheses. Two trees are equal when they
are built alike from equal texts and from numbers equal bit for bit; `Expr.same` decides it.
-/

namespace BlockScript

/-- One `key: value` pair of an object literal, over a type of expressions. -/
structure Entry (ε : Type) where
  key : ε
  value : ε
  deriving Repr, Inhabited

/-- An expression. -/
inductive Expr
  | number (value : Binary64)
  /-- A text literal, without its quotes. -/
  | text (content : String)
  | name (name : String)
  /-- A selector on its own, without its brackets. -/
  | selector (target : String)
  /-- The part of a value at an index: `value[index]`. -/
  | member (value index : Expr)
  /-- A value with a selector behind it: `value<target>`. -/
  | selected (value : Expr) (target : String)
  | binary (operator : Operator) (left right : Expr)
  | call (callee : String) (arguments : List Expr)
  | array (elements : List Expr)
  /-- An object literal; keys are any expressions and may repeat. -/
  | object (entries : List (Entry Expr))
  deriving Repr, Inhabited

namespace Expr

/-- Whether the expression can be assigned to and can carry a selector. -/
def isPlace : Expr → Bool
  | name _ | member .. | selected .. => true
  | _ => false

mutual

/-- Whether two expressions are equal. -/
def same : Expr → Expr → Bool
  | number x, number y => x == y
  | text x, text y => x == y
  | name x, name y => x == y
  | selector x, selector y => x == y
  | member x i, member y j => same x y && same i j
  | selected x s, selected y t => same x y && s == t
  | binary o x x', binary p y y' => o == p && same x y && same x' y'
  | call f xs, call g ys => f == g && sameAll xs ys
  | array xs, array ys => sameAll xs ys
  | object xs, object ys => sameEntries xs ys
  | _, _ => false

/-- Whether two lists of expressions are equal. -/
def sameAll : List Expr → List Expr → Bool
  | [], [] => true
  | x :: xs, y :: ys => same x y && sameAll xs ys
  | _, _ => false

/-- Whether two lists of entries are equal. -/
def sameEntries : List (Entry Expr) → List (Entry Expr) → Bool
  | [], [] => true
  | ⟨k, x⟩ :: xs, ⟨l, y⟩ :: ys => same k l && same x y && sameEntries xs ys
  | _, _ => false

end

instance : BEq Expr := ⟨same⟩

end Expr

end BlockScript
