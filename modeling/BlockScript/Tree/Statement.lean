import BlockScript.Tree.Expr
import BlockScript.Tree.Scope

/-!
# Statements

A program is a list of statements, and so is the body of every block. A chain of `if`, `elif`
and `else` is a `Conditional`: each link ends the chain, or leads to a last block, or to the
next link, so that nothing can follow an `else`.
-/

namespace BlockScript

/-- An assignment: `target operator value`. -/
structure Assignment where
  target : Expr
  operator : AssignOperator
  value : Expr
  deriving Repr, Inhabited

mutual

/-- A statement of a program. -/
inductive Statement
  | declaration (scope : Scope) (name : String) (value? : Option Expr)
  /-- A function; parameter names may repeat. -/
  | function (name : String) (parameters : List String) (body : List Statement)
  /-- A `return` with any number of values. -/
  | returning (values : List Expr)
  | conditional (chain : Conditional)
  /-- A loop with a start, a step and a condition. -/
  | loop (start : Assignment) (step : Statement) (condition : Expr) (body : List Statement)
  /-- A loop over the items of a value. -/
  | each (name : String) (collection : Expr) (body : List Statement)
  /-- A loop over a range that number literals fix. -/
  | range (start stop : Binary64) (name : String) (body : List Statement)
  | assignment (assignment : Assignment)
  /-- An expression that stands for its effect. -/
  | expression (expr : Expr)

/-- A chain of conditions. -/
inductive Conditional
  /-- The last link, without an `else`. -/
  | only (condition : Expr) (body : List Statement)
  /-- The last link, with an `else`. -/
  | otherwise (condition : Expr) (body : List Statement) (other : List Statement)
  /-- A link that an `elif` follows. -/
  | elif (condition : Expr) (body : List Statement) (next : Conditional)

end

instance : Inhabited Statement := ⟨.returning []⟩

instance : Inhabited Conditional := ⟨.only default []⟩

/-- The body of a block. -/
abbrev Block := List Statement

/-- A whole program. -/
abbrev Program := Block

/-- Whether two assignments are equal. -/
def Assignment.same (left right : Assignment) : Bool :=
  left.target == right.target && left.operator == right.operator && left.value == right.value

mutual

/-- Whether two statements are equal. -/
def Statement.same : Statement → Statement → Bool
  | .declaration s n v, .declaration t m w =>
      s == t && n == m &&
        match v, w with
        | none, none => true
        | some x, some y => x == y
        | _, _ => false
  | .function n ps b, .function m qs c => n == m && ps == qs && Statement.sameAll b c
  | .returning vs, .returning ws => Expr.sameAll vs ws
  | .conditional c, .conditional d => Conditional.same c d
  | .loop a s c b, .loop a' s' c' b' =>
      a.same a' && Statement.same s s' && c == c' && Statement.sameAll b b'
  | .each n o b, .each m p c => n == m && o == p && Statement.sameAll b c
  | .range x y n b, .range x' y' m c =>
      x == x' && y == y' && n == m && Statement.sameAll b c
  | .assignment a, .assignment b => a.same b
  | .expression e, .expression f => e == f
  | _, _ => false

/-- Whether two chains are equal. -/
def Conditional.same : Conditional → Conditional → Bool
  | .only c b, .only c' b' => c == c' && Statement.sameAll b b'
  | .otherwise c b o, .otherwise c' b' o' =>
      c == c' && Statement.sameAll b b' && Statement.sameAll o o'
  | .elif c b n, .elif c' b' n' =>
      c == c' && Statement.sameAll b b' && Conditional.same n n'
  | _, _ => false

/-- Whether two blocks are equal. -/
def Statement.sameAll : Block → Block → Bool
  | [], [] => true
  | s :: ss, t :: ts => Statement.same s t && Statement.sameAll ss ts
  | _, _ => false

end

instance : BEq Statement := ⟨Statement.same⟩

end BlockScript
