import BlockScript.Number.Layout
import BlockScript.Printer.Piece
import BlockScript.Tree.Expr

/-!
# Printing expressions

Parentheses appear only around an operand of a binary operator that would otherwise be grouped
differently: on the left if it is an operation that binds looser, on the right also if it binds
just as tightly, since operators lean to the left.

The pieces of an expression are put in front of those that follow it, so that a long chain of
operators is not copied once for every operator. `piecesBefore_eq_append` says that nothing
else depends on what follows.
-/

namespace BlockScript

/-- A number as it is written in a program. -/
def Lexeme.ofNumber (x : Binary64) : Lexeme := .number (String.ofList (Layout.program.write x))

namespace Expr

/-- The operator of a binary operation. -/
def operator? : Expr → Option Operator
  | binary operator _ _ => some operator
  | _ => none

/-- Whether the expression needs parentheses to the left of `outer`. -/
def needsGroupLeftOf (outer : Operator) (expr : Expr) : Bool :=
  expr.operator?.any (·.precedence < outer.precedence)

/-- Whether the expression needs parentheses to the right of `outer`. -/
def needsGroupRightOf (outer : Operator) (expr : Expr) : Bool :=
  expr.operator?.any (·.precedence ≤ outer.precedence)

mutual

/-- The pieces of an expression, in front of `rest`. -/
def piecesBefore (rest : List Piece) : Expr → List Piece
  | number x => .lexeme (.ofNumber x) :: rest
  | text content => .lexeme (.text content) :: rest
  | name word => .lexeme (.identifier word) :: rest
  | selector target => .lexeme (.selector target) :: rest
  | member value index =>
      piecesBefore (.mark .openBracket :: piecesBefore (.mark .closeBracket :: rest) index) value
  | selected value target => piecesBefore (.lexeme (.selector target) :: rest) value
  | binary operator left right =>
      let groupLeft := left.needsGroupLeftOf operator
      let groupRight := right.needsGroupRightOf operator
      Piece.opened groupLeft (piecesBefore
        (Piece.closed groupLeft (.blank :: .lexeme ⟨operator.kind, none⟩ :: .blank ::
          Piece.opened groupRight (piecesBefore (Piece.closed groupRight rest) right))) left)
  | call callee arguments =>
      .lexeme (.identifier callee) :: .mark .openParen ::
        listBefore (.mark .closeParen :: rest) arguments
  | array elements => .mark .openBracket :: listBefore (.mark .closeBracket :: rest) elements
  | object entries => .mark .openCurly :: entriesBefore (.mark .closeCurly :: rest) entries

/-- The pieces of expressions with commas between them, in front of `rest`. -/
def listBefore (rest : List Piece) : List Expr → List Piece
  | [] => rest
  | [expr] => piecesBefore rest expr
  | expr :: others => piecesBefore (.mark .comma :: .blank :: listBefore rest others) expr

/-- The pieces of entries with commas between them, in front of `rest`. -/
def entriesBefore (rest : List Piece) : List (Entry Expr) → List Piece
  | [] => rest
  | [⟨key, value⟩] => piecesBefore (.mark .colon :: .blank :: piecesBefore rest value) key
  | ⟨key, value⟩ :: others =>
      piecesBefore (.mark .colon :: .blank ::
        piecesBefore (.mark .comma :: .blank :: entriesBefore rest others) value) key

end

/-- The pieces of an expression. -/
def pieces (expr : Expr) : List Piece := expr.piecesBefore []

/-- The pieces of expressions with commas between them. -/
def listPieces (exprs : List Expr) : List Piece := listBefore [] exprs

mutual

theorem piecesBefore_append (first rest : List Piece) : ∀ expr : Expr,
    piecesBefore (first ++ rest) expr = piecesBefore first expr ++ rest
  | number _ | text _ | name _ | selector _ => rfl
  | member value index => by
      simp only [piecesBefore, ← piecesBefore_append, List.cons_append]
  | selected value target => by
      simp only [piecesBefore, ← piecesBefore_append, List.cons_append]
  | binary operator left right => by
      simp only [piecesBefore, Piece.opened_append, Piece.closed_append, piecesBefore_append,
        ← List.cons_append]
  | call callee arguments => by
      simp only [piecesBefore, List.cons_append, ← listBefore_append]
  | array elements => by
      simp only [piecesBefore, List.cons_append, ← listBefore_append]
  | object entries => by
      simp only [piecesBefore, List.cons_append, ← entriesBefore_append]

theorem listBefore_append (first rest : List Piece) : ∀ exprs : List Expr,
    listBefore (first ++ rest) exprs = listBefore first exprs ++ rest
  | [] => rfl
  | [expr] => by simp only [listBefore, piecesBefore_append]
  | expr :: second :: others => by
      simp only [listBefore, ← piecesBefore_append, List.cons_append,
        listBefore_append first rest (second :: others)]

theorem entriesBefore_append (first rest : List Piece) : ∀ entries : List (Entry Expr),
    entriesBefore (first ++ rest) entries = entriesBefore first entries ++ rest
  | [] => rfl
  | [⟨key, value⟩] => by simp only [entriesBefore, ← piecesBefore_append, List.cons_append]
  | ⟨key, value⟩ :: second :: others => by
      simp only [entriesBefore, ← piecesBefore_append, List.cons_append,
        entriesBefore_append first rest (second :: others)]

end

theorem piecesBefore_eq_append (rest : List Piece) (expr : Expr) :
    expr.piecesBefore rest = expr.pieces ++ rest :=
  piecesBefore_append [] rest expr

/-- The expression as program text. It never breaks a line, so both forms agree on it. -/
def print (form : PrintForm) (expr : Expr) : String :=
  String.ofList (Piece.writeAll form expr.pieces)

end Expr

end BlockScript
