import BlockScript.Token.Basic

/-!
# Printed pieces

A program is printed in two steps. First it becomes a list of pieces: lexemes, and the gaps
between them. Then the pieces are written one after the other. The two forms of a printed
program differ in the second step only, in what a line break is written as, and so they are
made of the same lexemes.
-/

namespace BlockScript

/-- The two forms of a printed program. -/
inductive PrintForm
  /-- Each statement on a line of its own, and blocks indented. -/
  | pretty
  /-- Everything on one line. -/
  | compact
  deriving DecidableEq, Repr, Inhabited

/-- A piece of a printed program. -/
inductive Piece
  | lexeme (lexeme : Lexeme)
  /-- A single blank. -/
  | blank
  /-- The start of a new line, this many levels deep. -/
  | newline (depth : Nat)
  deriving DecidableEq, Repr

namespace Piece

/-- A reserved word. -/
def word (keyword : Keyword) : Piece := lexeme (.keyword keyword)

/-- An operator or delimiter. -/
def mark (symbol : Symbol) : Piece := lexeme (.symbol symbol)

/-- The text of a piece. On one line, a new line is only a blank. -/
def write (form : PrintForm) : Piece → List Char
  | lexeme item => item.written
  | blank => [' ']
  | newline depth =>
      match form with
      | .pretty => '\n' :: List.replicate (4 * depth) ' '
      | .compact => [' ']

/-- The lexeme of a piece that is one. -/
def lexeme? : Piece → Option Lexeme
  | lexeme item => some item
  | blank | newline _ => none

/-- The text of a list of pieces. -/
def writeAll (form : PrintForm) (pieces : List Piece) : List Char :=
  pieces.flatMap (write form)

/-- Lists of pieces with a comma and a blank between them. -/
def separated : List (List Piece) → List Piece
  | [] => []
  | [item] => item
  | item :: rest => item ++ [mark .comma, blank] ++ separated rest

/-- Pieces behind an opening parenthesis, if one is needed. -/
def opened (needed : Bool) (pieces : List Piece) : List Piece :=
  if needed then mark .openParen :: pieces else pieces

/-- Pieces behind a closing parenthesis, if one is needed. -/
def closed (needed : Bool) (pieces : List Piece) : List Piece :=
  if needed then mark .closeParen :: pieces else pieces

theorem opened_append (needed : Bool) (first rest : List Piece) :
    opened needed (first ++ rest) = opened needed first ++ rest := by
  cases needed <;> rfl

theorem closed_append (needed : Bool) (first rest : List Piece) :
    closed needed (first ++ rest) = closed needed first ++ rest := by
  cases needed <;> rfl

end Piece

end BlockScript
