import BlockScript.Printer.Program

/-!
# The pieces of a printed tree

The printer puts the pieces of an expression in front of those that follow. Read on its own, an
expression is printed as its parts with marks and blanks between them, which is what the lemmas
here say. `Piece.words` leaves out everything but the lexemes.
-/

namespace BlockScript

namespace Piece

/-- The lexemes among the pieces. -/
def words (pieces : List Piece) : List Lexeme := pieces.filterMap lexeme?

@[simp] theorem words_nil : words [] = [] := rfl

@[simp] theorem words_append (first second : List Piece) :
    words (first ++ second) = words first ++ words second :=
  List.filterMap_append

@[simp] theorem words_lexeme (item : Lexeme) (rest : List Piece) :
    words (.lexeme item :: rest) = item :: words rest := rfl

@[simp] theorem words_word (keyword : Keyword) (rest : List Piece) :
    words (.word keyword :: rest) = .keyword keyword :: words rest := rfl

@[simp] theorem words_mark (symbol : Symbol) (rest : List Piece) :
    words (.mark symbol :: rest) = .symbol symbol :: words rest := rfl

@[simp] theorem words_name (name : String) (rest : List Piece) :
    words (.name name :: rest) = .identifier name :: words rest := rfl

@[simp] theorem words_blank (rest : List Piece) : words (.blank :: rest) = words rest := rfl

@[simp] theorem words_newline (depth : Nat) (rest : List Piece) :
    words (.newline depth :: rest) = words rest := rfl

/-- Pieces in parentheses, if they need them. -/
def grouped (needed : Bool) (pieces : List Piece) : List Piece :=
  if needed then .mark .openParen :: pieces ++ [.mark .closeParen] else pieces

theorem opened_append_closed (needed : Bool) (pieces rest : List Piece) :
    opened needed (pieces ++ closed needed rest) = grouped needed pieces ++ rest := by
  cases needed
  · rfl
  · simp [opened, closed, grouped]

theorem words_braced (depth : Nat) (statements : List Piece) :
    words (braced depth statements) =
      .symbol .openCurly :: words statements ++ [.symbol .closeCurly] := by
  cases statements with
  | nil => rfl
  | cons first others =>
    show words ([.mark .openCurly, .newline (depth + 1)] ++ (first :: others) ++
      [.newline depth, .mark .closeCurly]) = _
    rw [words_append, words_append]
    rfl

end Piece

namespace Expr

/-- The pieces of entries with commas between them. -/
def entryPieces (entries : List (Entry Expr)) : List Piece := entriesBefore [] entries

theorem listBefore_eq_append (rest : List Piece) (exprs : List Expr) :
    listBefore rest exprs = listPieces exprs ++ rest :=
  listBefore_append [] rest exprs

theorem entriesBefore_eq_append (rest : List Piece) (entries : List (Entry Expr)) :
    entriesBefore rest entries = entryPieces entries ++ rest :=
  entriesBefore_append [] rest entries

theorem pieces_member (value index : Expr) :
    (member value index).pieces =
      value.pieces ++ .mark .openBracket :: (index.pieces ++ [.mark .closeBracket]) := by
  rw [pieces, piecesBefore, piecesBefore_eq_append, piecesBefore_eq_append]

theorem pieces_selected (value : Expr) (target : String) :
    (selected value target).pieces = value.pieces ++ [.lexeme (.selector target)] := by
  rw [pieces, piecesBefore, piecesBefore_eq_append]

theorem pieces_binary (operator : Operator) (left right : Expr) :
    (binary operator left right).pieces =
      Piece.grouped (left.needsGroupLeftOf operator) left.pieces ++
        .blank :: .lexeme ⟨operator.kind, none⟩ :: .blank ::
          Piece.grouped (right.needsGroupRightOf operator) right.pieces := by
  rw [pieces, piecesBefore]
  simp only [piecesBefore_eq_append, Piece.opened_append_closed, List.append_nil]

theorem pieces_call (callee : String) (arguments : List Expr) :
    (call callee arguments).pieces =
      .name callee :: .mark .openParen :: (listPieces arguments ++ [.mark .closeParen]) := by
  rw [pieces, piecesBefore, listBefore_eq_append]
  rfl

theorem pieces_array (elements : List Expr) :
    (array elements).pieces =
      .mark .openBracket :: (listPieces elements ++ [.mark .closeBracket]) := by
  rw [pieces, piecesBefore, listBefore_eq_append]

theorem pieces_object (entries : List (Entry Expr)) :
    (object entries).pieces =
      .mark .openCurly :: (entryPieces entries ++ [.mark .closeCurly]) := by
  rw [pieces, piecesBefore, entriesBefore_eq_append]

theorem listPieces_single (expr : Expr) : listPieces [expr] = expr.pieces := by
  rw [listPieces, listBefore, pieces]

theorem listPieces_cons (expr second : Expr) (others : List Expr) :
    listPieces (expr :: second :: others) =
      expr.pieces ++ .mark .comma :: .blank :: listPieces (second :: others) := by
  rw [listPieces, listBefore, piecesBefore_eq_append]
  · rfl
  · simp

theorem entryPieces_single (key value : Expr) :
    entryPieces [⟨key, value⟩] = key.pieces ++ .mark .colon :: .blank :: value.pieces := by
  rw [entryPieces, entriesBefore, piecesBefore_eq_append]
  rfl

theorem entryPieces_cons (key value : Expr) (second : Entry Expr) (others : List (Entry Expr)) :
    entryPieces (⟨key, value⟩ :: second :: others) =
      key.pieces ++ .mark .colon :: .blank ::
        (value.pieces ++ .mark .comma :: .blank :: entryPieces (second :: others)) := by
  rw [entryPieces, entriesBefore, piecesBefore_eq_append, piecesBefore_eq_append]
  · rfl
  · simp

end Expr

end BlockScript
