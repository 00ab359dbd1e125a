import BlockScript.Printer.Expr
import BlockScript.Tree.Statement

/-!
# Printing programs

Every statement ends with a semicolon and starts a line, as deep as the blocks around it. An
`elif` is printed as the `if` that it stands for, with the other keyword.
-/

namespace BlockScript

/-- The pieces of an assignment. -/
def Assignment.pieces (assignment : Assignment) : List Piece :=
  assignment.target.pieces ++ [.blank] ++ assignment.operator.symbols.map .mark ++ [.blank] ++
    assignment.value.pieces

/-- The pieces of a name. -/
def Piece.name (word : String) : Piece := .lexeme (.identifier word)

/-- A block around the pieces of its statements, which stand one level deeper than `depth`. -/
def Piece.braced (depth : Nat) (statements : List Piece) : List Piece :=
  match statements with
  | [] => [.mark .openCurly, .mark .closeCurly]
  | _ =>
      [.mark .openCurly, .newline (depth + 1)] ++ statements ++
        [.newline depth, .mark .closeCurly]

mutual

/-- The pieces of a statement that starts a line of this depth, without its semicolon. -/
def Statement.pieces (depth : Nat) : Statement → List Piece
  | .declaration scope name value? =>
      [.word scope.keyword, .blank, .name name] ++
        match value? with
        | none => []
        | some value => [.blank, .mark .equals, .blank] ++ value.pieces
  | .function name parameters body =>
      [.word .function, .blank, .name name, .mark .openParen] ++
        Piece.separated (parameters.map fun parameter => [.name parameter]) ++
        [.mark .closeParen, .blank] ++
        Piece.braced depth (Statement.piecesOfAll (depth + 1) body)
  | .returning [] => [.word .return_]
  | .returning values =>
      [.word .return_, .blank] ++ Expr.listPieces values
  | .conditional chain => chain.pieces .if_ depth
  | .loop start step condition body =>
      [.word .for_, .blank] ++ start.pieces ++
        [.blank, .word .with_, .blank] ++ step.pieces depth ++
        [.blank, .word .while_, .blank] ++ condition.pieces ++
        [.blank] ++ Piece.braced depth (Statement.piecesOfAll (depth + 1) body)
  | .each name collection body =>
      [.word .for_, .blank, .name name, .blank, .word .in_, .blank] ++ collection.pieces ++
        [.blank] ++ Piece.braced depth (Statement.piecesOfAll (depth + 1) body)
  | .range start stop name body =>
      [.word .hardcode, .blank, .lexeme (.ofNumber start), .blank, .word .to_, .blank,
        .lexeme (.ofNumber stop), .blank, .word .as, .blank, .name name, .blank] ++
        Piece.braced depth (Statement.piecesOfAll (depth + 1) body)
  | .assignment assignment => assignment.pieces
  | .expression expr => expr.pieces

/-- The pieces of a chain of conditions that `opening` opens. -/
def Conditional.pieces (opening : Keyword) (depth : Nat) : Conditional → List Piece
  | .only condition body =>
      [.word opening, .blank] ++ condition.pieces ++ [.blank] ++
        Piece.braced depth (Statement.piecesOfAll (depth + 1) body)
  | .otherwise condition body other =>
      [.word opening, .blank] ++ condition.pieces ++ [.blank] ++
        Piece.braced depth (Statement.piecesOfAll (depth + 1) body) ++
        [.blank, .word .else_, .blank] ++
        Piece.braced depth (Statement.piecesOfAll (depth + 1) other)
  | .elif condition body next =>
      [.word opening, .blank] ++ condition.pieces ++ [.blank] ++
        Piece.braced depth (Statement.piecesOfAll (depth + 1) body) ++
        [.blank] ++ next.pieces .elif depth

/-- The pieces of statements that each start a line of this depth. -/
def Statement.piecesOfAll (depth : Nat) : Block → List Piece
  | [] => []
  | [statement] => statement.pieces depth ++ [.mark .semicolon]
  | statement :: rest =>
      statement.pieces depth ++ [.mark .semicolon, .newline depth] ++
        Statement.piecesOfAll depth rest

end

/-- The program as program text. -/
def printProgram (form : PrintForm) (program : Program) : String :=
  String.ofList (Piece.writeAll form (Statement.piecesOfAll 0 program))

end BlockScript
