import BlockScript.Proofs.Printing.Legible

/-!
# The pieces of any tree are spaced

Whatever a tree looks like, the printer puts a blank, a bracket or a comma between two lexemes that
could cling to each other. So the pieces of a tree are spaced (`Statement.spaced_all`), and they are as
asked if the leaves of the tree are (`Statement.AllLeavesOfAll`): nothing is said about where a leaf
stands, how deep the tree is, or whether it could be parsed.
-/

namespace BlockScript

/-! ## Leaves -/

mutual

/-- The lexemes that the leaves of the expression are printed as are as asked. -/
def Expr.AllLeaves (holds : Lexeme → Prop) : Expr → Prop
  | .number x => holds (.ofNumber x)
  | .text content => holds (.text content)
  | .name word => holds (.identifier word)
  | .selector target => holds (.selector target)
  | .member value index => value.AllLeaves holds ∧ index.AllLeaves holds
  | .selected value target => value.AllLeaves holds ∧ holds (.selector target)
  | .binary _ left right => left.AllLeaves holds ∧ right.AllLeaves holds
  | .call callee arguments => holds (.identifier callee) ∧ Expr.AllLeavesOfAll holds arguments
  | .array elements => Expr.AllLeavesOfAll holds elements
  | .object entries => Expr.AllLeavesOfEntries holds entries

def Expr.AllLeavesOfAll (holds : Lexeme → Prop) : List Expr → Prop
  | [] => True
  | expr :: others => expr.AllLeaves holds ∧ Expr.AllLeavesOfAll holds others

def Expr.AllLeavesOfEntries (holds : Lexeme → Prop) : List (Entry Expr) → Prop
  | [] => True
  | ⟨key, value⟩ :: others =>
      key.AllLeaves holds ∧ value.AllLeaves holds ∧ Expr.AllLeavesOfEntries holds others

end

structure Assignment.AllLeaves (holds : Lexeme → Prop) (assignment : Assignment) : Prop where
  target : assignment.target.AllLeaves holds
  value : assignment.value.AllLeaves holds

mutual

/-- The lexemes that the leaves of the statement are printed as are as asked. Its names are leaves,
and so are the ends of a fixed range. -/
def Statement.AllLeaves (holds : Lexeme → Prop) : Statement → Prop
  | .declaration _ name value? =>
      holds (.identifier name) ∧ ∀ value ∈ value?, value.AllLeaves holds
  | .function name parameters body =>
      holds (.identifier name) ∧ (∀ parameter ∈ parameters, holds (.identifier parameter)) ∧
        Statement.AllLeavesOfAll holds body
  | .returning values => Expr.AllLeavesOfAll holds values
  | .conditional chain => chain.AllLeaves holds
  | .loop start step condition body =>
      start.AllLeaves holds ∧ step.AllLeaves holds ∧ condition.AllLeaves holds ∧
        Statement.AllLeavesOfAll holds body
  | .each name collection body =>
      holds (.identifier name) ∧ collection.AllLeaves holds ∧ Statement.AllLeavesOfAll holds body
  | .range start stop name body =>
      holds (.ofNumber start) ∧ holds (.ofNumber stop) ∧ holds (.identifier name) ∧
        Statement.AllLeavesOfAll holds body
  | .assignment assignment => assignment.AllLeaves holds
  | .expression expr => expr.AllLeaves holds

def Conditional.AllLeaves (holds : Lexeme → Prop) : Conditional → Prop
  | .only condition body => condition.AllLeaves holds ∧ Statement.AllLeavesOfAll holds body
  | .otherwise condition body other =>
      condition.AllLeaves holds ∧ Statement.AllLeavesOfAll holds body ∧
        Statement.AllLeavesOfAll holds other
  | .elif condition body next =>
      condition.AllLeaves holds ∧ Statement.AllLeavesOfAll holds body ∧ next.AllLeaves holds

def Statement.AllLeavesOfAll (holds : Lexeme → Prop) : Block → Prop
  | [] => True
  | statement :: others =>
      statement.AllLeaves holds ∧ Statement.AllLeavesOfAll holds others

end

/-! ## Pieces that are no leaves -/

open Piece

/-- The pieces that do not depend on what a tree holds are as asked. -/
structure Piece.Admits (holds : Piece → Prop) : Prop where
  blank : holds .blank
  newline : ∀ depth, holds (.newline depth)
  mark : ∀ symbol, holds (.mark symbol)
  word : ∀ keyword, holds (.word keyword)

namespace Piece

variable {holds : Piece → Prop}

theorem Admits.operator (admits : Admits holds) (operator : Operator) :
    holds (.lexeme ⟨operator.kind, none⟩) := by
  cases operator <;> first | exact admits.mark _ | exact admits.word _

theorem Spaced.grouped {pieces : List Piece} (admits : Admits holds) (spaced : Spaced holds pieces)
    (needed : Bool) : Spaced holds (grouped needed pieces) := by
  cases needed with
  | false => exact spaced
  | true => exact (spaced.cons (admits.mark .openParen) rfl).concat (admits.mark .closeParen) rfl

theorem Spaced.braced {statements : List Piece} (admits : Admits holds)
    (spaced : Spaced holds statements) (depth : Nat) : Spaced holds (braced depth statements) := by
  cases statements with
  | nil => exact .cons (admits.mark .openCurly) rfl (.single (admits.mark .closeCurly))
  | cons first others =>
    show Spaced holds ([.mark .openCurly, .newline (depth + 1)] ++ (first :: others) ++
      [.newline depth, .mark .closeCurly])
    refine .between (admits.newline depth) rfl ?_ (.single (admits.mark .closeCurly))
    exact .cons (admits.mark .openCurly) rfl (.cons (admits.newline _) rfl spaced)

end Piece

section
variable {holds : Piece → Prop} (admits : Admits holds)
include admits

/-! ## Expressions -/

namespace Expr

mutual

theorem spaced : ∀ expr : Expr, expr.AllLeaves (fun item => holds (.lexeme item)) →
    Spaced holds expr.pieces
  | .number _, valid | .text _, valid | .name _, valid | .selector _, valid => .single valid
  | .member value index, ⟨valueOk, indexOk⟩ => by
    rw [pieces_member]
    exact .between (admits.mark _) rfl (spaced value valueOk)
      ((spaced index indexOk).concat (admits.mark _) rfl)
  | .selected value target, ⟨valueOk, valid⟩ => by
    rw [pieces_selected]
    exact (spaced value valueOk).concat valid rfl
  | .binary operator left right, ⟨leftOk, rightOk⟩ => by
    rw [pieces_binary]
    exact .between admits.blank rfl ((spaced left leftOk).grouped admits _)
      (.cons_between (admits.operator operator) admits.blank rfl
        ((spaced right rightOk).grouped admits _))
  | .call callee arguments, ⟨valid, argumentsOk⟩ => by
    rw [pieces_call]
    exact .cons_between valid (admits.mark _) rfl
      ((spaced_list arguments argumentsOk).concat (admits.mark _) rfl)
  | .array elements, elementsOk => by
    rw [pieces_array]
    exact .cons (admits.mark _) rfl ((spaced_list elements elementsOk).concat (admits.mark _) rfl)
  | .object entries, entriesOk => by
    rw [pieces_object]
    exact .cons (admits.mark _) rfl ((spaced_entries entries entriesOk).concat (admits.mark _) rfl)

theorem spaced_list : ∀ exprs : List Expr,
    AllLeavesOfAll (fun item => holds (.lexeme item)) exprs → Spaced holds (listPieces exprs)
  | [], _ => .nil
  | [expr], ⟨exprOk, _⟩ => by
    rw [listPieces_single]
    exact spaced expr exprOk
  | expr :: second :: others, ⟨exprOk, othersOk⟩ => by
    rw [listPieces_cons]
    exact .between (admits.mark _) rfl (spaced expr exprOk)
      (.cons admits.blank rfl (spaced_list (second :: others) othersOk))

theorem spaced_entries : ∀ entries : List (Entry Expr),
    AllLeavesOfEntries (fun item => holds (.lexeme item)) entries →
    Spaced holds (entryPieces entries)
  | [], _ => .nil
  | [⟨key, value⟩], ⟨keyOk, valueOk, _⟩ => by
    rw [entryPieces_single]
    exact .between (admits.mark _) rfl (spaced key keyOk)
      (.cons admits.blank rfl (spaced value valueOk))
  | ⟨key, value⟩ :: second :: others, ⟨keyOk, valueOk, othersOk⟩ => by
    rw [entryPieces_cons]
    exact .between (admits.mark _) rfl (spaced key keyOk) (.cons admits.blank rfl
      (.between (admits.mark _) rfl (spaced value valueOk)
        (.cons admits.blank rfl (spaced_entries (second :: others) othersOk))))

end

end Expr

/-! ## Statements -/

theorem AssignOperator.spaced_symbols (operator : AssignOperator) :
    Spaced holds (operator.symbols.map Piece.mark) := by
  cases operator with
  | assign => exact .single (admits.mark .equals)
  | add | subtract | multiply | divide | modulo =>
    exact .cons (admits.mark _) rfl (.single (admits.mark .equals))

theorem Assignment.spaced {assignment : Assignment}
    (leaves : assignment.AllLeaves fun item => holds (.lexeme item)) :
    Spaced holds assignment.pieces := by
  have target := Expr.spaced admits _ leaves.target
  have value := Expr.spaced admits _ leaves.value
  have sign := assignment.operator.spaced_symbols admits
  simp only [Assignment.pieces, List.append_assoc, List.cons_append, List.nil_append]
  exact .between admits.blank rfl target (.between admits.blank rfl sign value)

theorem spaced_parameters : ∀ parameters : List String,
    (∀ parameter ∈ parameters, holds (.name parameter)) →
    Spaced holds (separated (parameters.map fun parameter => [.name parameter]))
  | [], _ => .nil
  | [parameter], valid => .single (valid parameter List.mem_cons_self)
  | parameter :: second :: others, valid =>
    .cons_between (valid parameter List.mem_cons_self) (admits.mark .comma) rfl
      (.cons admits.blank rfl (spaced_parameters (second :: others)
        fun other mem => valid other (List.mem_cons_of_mem _ mem)))

mutual

theorem Statement.spaced : ∀ (statement : Statement) (depth : Nat),
    statement.AllLeaves (fun item => holds (.lexeme item)) → Spaced holds (statement.pieces depth)
  | .declaration scope name none, depth, ⟨valid, _⟩ =>
    .cons_between (admits.word _) admits.blank rfl (.single valid)
  | .declaration scope name (some value), depth, ⟨valid, valueOk⟩ =>
    .cons_between (admits.word _) admits.blank rfl (.cons_between valid admits.blank rfl
      (.cons_between (admits.mark .equals) admits.blank rfl
        (Expr.spaced admits value (valueOk value rfl))))
  | .function name parameters body, depth, ⟨valid, parametersOk, bodyOk⟩ => by
    have inside := spaced_parameters admits parameters parametersOk
    have block := (Statement.spaced_all body (depth + 1) bodyOk).braced admits depth
    simp only [Statement.pieces, List.append_assoc, List.cons_append, List.nil_append]
    exact .cons_between (admits.word .function) admits.blank rfl
      (.cons_between valid (admits.mark _) rfl
        (.between (admits.mark _) rfl inside (.cons admits.blank rfl block)))
  | .returning [], depth, _ => .single (admits.word .return_)
  | .returning (value :: others), depth, valuesOk =>
    .cons_between (admits.word .return_) admits.blank rfl
      (Expr.spaced_list admits (value :: others) valuesOk)
  | .conditional chain, depth, chainOk => by
    rw [Statement.pieces]
    exact Conditional.spaced chain .if_ depth chainOk
  | .loop start step condition body, depth, ⟨startOk, stepOk, conditionOk, bodyOk⟩ => by
    have steps := Statement.spaced step depth stepOk
    have test := Expr.spaced admits condition conditionOk
    have block := (Statement.spaced_all body (depth + 1) bodyOk).braced admits depth
    simp only [Statement.pieces, List.append_assoc, List.cons_append, List.nil_append]
    exact .cons_between (admits.word .for_) admits.blank rfl
      (.between admits.blank rfl (Assignment.spaced admits startOk)
        (.cons_between (admits.word .with_) admits.blank rfl (.between admits.blank rfl steps
          (.cons_between (admits.word .while_) admits.blank rfl
            (.between admits.blank rfl test block)))))
  | .each name collection body, depth, ⟨valid, collectionOk, bodyOk⟩ => by
    have items := Expr.spaced admits collection collectionOk
    have block := (Statement.spaced_all body (depth + 1) bodyOk).braced admits depth
    simp only [Statement.pieces, List.append_assoc, List.cons_append, List.nil_append]
    exact .cons_between (admits.word .for_) admits.blank rfl
      (.cons_between valid admits.blank rfl (.cons_between (admits.word .in_) admits.blank rfl
        (.between admits.blank rfl items block)))
  | .range start stop name body, depth, ⟨startOk, stopOk, valid, bodyOk⟩ => by
    have block := (Statement.spaced_all body (depth + 1) bodyOk).braced admits depth
    simp only [Statement.pieces, List.cons_append, List.nil_append]
    exact .cons_between (admits.word .hardcode) admits.blank rfl
      (.cons_between startOk admits.blank rfl (.cons_between (admits.word .to_) admits.blank rfl
        (.cons_between stopOk admits.blank rfl (.cons_between (admits.word .as) admits.blank rfl
          (.cons_between valid admits.blank rfl block)))))
  | .assignment assignment, depth, assignmentOk => by
    rw [Statement.pieces]
    exact Assignment.spaced admits assignmentOk
  | .expression expr, depth, exprOk => by
    rw [Statement.pieces]
    exact Expr.spaced admits expr exprOk

theorem Conditional.spaced : ∀ (chain : Conditional) (opening : Keyword) (depth : Nat),
    chain.AllLeaves (fun item => holds (.lexeme item)) → Spaced holds (chain.pieces opening depth)
  | .only condition body, opening, depth, ⟨conditionOk, bodyOk⟩ => by
    have test := Expr.spaced admits condition conditionOk
    have block := (Statement.spaced_all body (depth + 1) bodyOk).braced admits depth
    simp only [Conditional.pieces, List.append_assoc, List.cons_append, List.nil_append]
    exact .cons_between (admits.word opening) admits.blank rfl
      (.between admits.blank rfl test block)
  | .otherwise condition body other, opening, depth, ⟨conditionOk, bodyOk, otherOk⟩ => by
    have test := Expr.spaced admits condition conditionOk
    have block := (Statement.spaced_all body (depth + 1) bodyOk).braced admits depth
    have last := (Statement.spaced_all other (depth + 1) otherOk).braced admits depth
    simp only [Conditional.pieces, List.append_assoc, List.cons_append, List.nil_append]
    exact .cons_between (admits.word opening) admits.blank rfl (.between admits.blank rfl test
      (.between admits.blank rfl block (.cons_between (admits.word .else_) admits.blank rfl last)))
  | .elif condition body next, opening, depth, ⟨conditionOk, bodyOk, nextOk⟩ => by
    have test := Expr.spaced admits condition conditionOk
    have block := (Statement.spaced_all body (depth + 1) bodyOk).braced admits depth
    have chained := Conditional.spaced next .elif depth nextOk
    simp only [Conditional.pieces, List.append_assoc, List.cons_append, List.nil_append]
    exact .cons_between (admits.word opening) admits.blank rfl (.between admits.blank rfl test
      (.between admits.blank rfl block chained))

theorem Statement.spaced_all : ∀ (body : Block) (depth : Nat),
    Statement.AllLeavesOfAll (fun item => holds (.lexeme item)) body →
    Spaced holds (Statement.piecesOfAll depth body)
  | [], _, _ => .nil
  | [statement], depth, ⟨statementOk, _⟩ => by
    rw [Statement.piecesOfAll]
    exact (Statement.spaced statement depth statementOk).concat (admits.mark .semicolon) rfl
  | statement :: second :: others, depth, ⟨statementOk, othersOk⟩ => by
    have first := Statement.spaced statement depth statementOk
    have behind := Statement.spaced_all (second :: others) depth othersOk
    simp only [Statement.piecesOfAll, List.append_assoc, List.cons_append, List.nil_append]
    exact .between (admits.mark .semicolon) rfl first (.cons (admits.newline _) rfl behind)

end

end

end BlockScript
