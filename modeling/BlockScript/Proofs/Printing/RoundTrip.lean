import BlockScript.Proofs.Printing.Derivation
import BlockScript.Proofs.Printing.Spacing
import BlockScript.Proofs.Syntax.Recognition

/-!
# Printed trees parse to themselves

What is written for the leaves of a producible tree spells them, so the tree is printed with legible
pieces (`Statement.legible_all`), whose lexemes are derived for it. So the lexer finds these lexemes,
and the parser makes the tree of them again (`parse_of_legible`), as long as no more levels are opened
than may be.
-/

namespace BlockScript

/-! ## Spelled lexemes -/

theorem Lexeme.spelledBy_keyword (word : Keyword) :
    (Lexeme.keyword word).SpelledBy (Lexeme.keyword word).written := by
  have written : (Lexeme.keyword word).written = word.letters := String.toList_ofList
  rw [written]
  exact .keyword word

theorem Lexeme.spelledBy_symbol (mark : Symbol) :
    (Lexeme.symbol mark).SpelledBy (Lexeme.symbol mark).written := by
  have written : (Lexeme.symbol mark).written = mark.letters := String.toList_ofList
  rw [written]
  exact .symbol mark

theorem Lexeme.spelledBy_identifier {name : String} (valid : IsName name.toList) :
    (Lexeme.identifier name).SpelledBy (Lexeme.identifier name).written := by
  have spelled := SpelledBy.identifier valid
  rwa [String.ofList_toList] at spelled

theorem Lexeme.spelledBy_number {x : Binary64} (literal : x.IsLiteral) :
    (Lexeme.ofNumber x).SpelledBy (Lexeme.ofNumber x).written := by
  have written : (Lexeme.ofNumber x).written = Layout.program.write x := String.toList_ofList
  rw [written]
  exact .number (isNumeral_write literal.finite literal.positive)

theorem Lexeme.spelledBy_text {content : String} (quotable : IsQuotable content.toList) :
    (Lexeme.text content).SpelledBy (Lexeme.text content).written := by
  have valid : IsQuote (quoteFor content.toList) ∧ quoteFor content.toList ∉ content.toList := by
    rw [quoteFor]
    split
    · rename_i double
      exact ⟨.inr rfl, quotable.resolve_left (not_not_intro double)⟩
    · rename_i single
      exact ⟨.inl rfl, single⟩
  have spelled := SpelledBy.text valid.1 valid.2
  rwa [String.ofList_toList] at spelled

theorem Lexeme.spelledBy_selector {target : String} (valid : IsTarget target.toList) :
    (Lexeme.selector target).SpelledBy (Lexeme.selector target).written := by
  have spelled := SpelledBy.selector valid
  rwa [String.ofList_toList] at spelled

open Piece

/-- What is written for the lexeme spells it. -/
def Lexeme.IsWritten (item : Lexeme) : Prop := item.SpelledBy item.written

theorem Piece.admits_isSpelled : Admits IsSpelled where
  blank := trivial
  newline _ := trivial
  mark := Lexeme.spelledBy_symbol
  word := Lexeme.spelledBy_keyword

/-! ## Expressions -/

namespace Expr

mutual

theorem leaves_written : ∀ expr : Expr, expr.Producible → expr.AllLeaves Lexeme.IsWritten
  | .number _, literal => Lexeme.spelledBy_number literal
  | .text _, quotable => Lexeme.spelledBy_text quotable
  | .name _, valid => Lexeme.spelledBy_identifier valid
  | .selector _, valid => Lexeme.spelledBy_selector valid
  | .member value index, ⟨_, valueOk, indexOk⟩ =>
    ⟨leaves_written value valueOk, leaves_written index indexOk⟩
  | .selected value _, ⟨_, valueOk, valid⟩ =>
    ⟨leaves_written value valueOk, Lexeme.spelledBy_selector valid⟩
  | .binary _ left right, ⟨leftOk, rightOk⟩ =>
    ⟨leaves_written left leftOk, leaves_written right rightOk⟩
  | .call _ arguments, ⟨valid, argumentsOk⟩ =>
    ⟨Lexeme.spelledBy_identifier valid, leaves_written_list arguments argumentsOk⟩
  | .array elements, elementsOk => leaves_written_list elements elementsOk
  | .object entries, entriesOk => leaves_written_entries entries entriesOk

theorem leaves_written_list : ∀ exprs : List Expr, AllProducible exprs →
    AllLeavesOfAll Lexeme.IsWritten exprs
  | [], _ => trivial
  | expr :: others, ⟨exprOk, othersOk⟩ =>
    ⟨leaves_written expr exprOk, leaves_written_list others othersOk⟩

theorem leaves_written_entries : ∀ entries : List (Entry Expr), EntriesProducible entries →
    AllLeavesOfEntries Lexeme.IsWritten entries
  | [], _ => trivial
  | ⟨key, value⟩ :: others, ⟨keyOk, valueOk, othersOk⟩ =>
    ⟨leaves_written key keyOk, leaves_written value valueOk, leaves_written_entries others othersOk⟩

end

theorem legible (expr : Expr) (producible : expr.Producible) : Legible expr.pieces :=
  spaced admits_isSpelled expr (leaves_written expr producible)

end Expr

/-! ## Statements -/

theorem Assignment.leaves_written {assignment : Assignment} (producible : assignment.Producible) :
    assignment.AllLeaves Lexeme.IsWritten :=
  ⟨Expr.leaves_written _ producible.target, Expr.leaves_written _ producible.value⟩

mutual

theorem Statement.leaves_written : ∀ statement : Statement, statement.Producible →
    statement.AllLeaves Lexeme.IsWritten
  | .declaration _ _ _, ⟨valid, _, valueOk⟩ =>
    ⟨Lexeme.spelledBy_identifier valid, fun value mem => Expr.leaves_written value (valueOk value mem)⟩
  | .function _ _ body, ⟨valid, parametersOk, bodyOk⟩ =>
    ⟨Lexeme.spelledBy_identifier valid,
      fun parameter mem => Lexeme.spelledBy_identifier (parametersOk parameter mem),
      Statement.leaves_written_all body bodyOk⟩
  | .returning values, valuesOk => Expr.leaves_written_list values valuesOk
  | .conditional chain, chainOk => Conditional.leaves_written chain chainOk
  | .loop _ step condition body, ⟨startOk, stepOk, _, conditionOk, bodyOk⟩ =>
    ⟨Assignment.leaves_written startOk, Statement.leaves_written step stepOk,
      Expr.leaves_written condition conditionOk, Statement.leaves_written_all body bodyOk⟩
  | .each _ collection body, ⟨valid, collectionOk, bodyOk⟩ =>
    ⟨Lexeme.spelledBy_identifier valid, Expr.leaves_written collection collectionOk,
      Statement.leaves_written_all body bodyOk⟩
  | .range _ _ _ body, ⟨startOk, stopOk, valid, bodyOk⟩ =>
    ⟨Lexeme.spelledBy_number startOk, Lexeme.spelledBy_number stopOk,
      Lexeme.spelledBy_identifier valid, Statement.leaves_written_all body bodyOk⟩
  | .assignment _, assignmentOk => Assignment.leaves_written assignmentOk
  | .expression expr, exprOk => Expr.leaves_written expr exprOk

theorem Conditional.leaves_written : ∀ chain : Conditional, chain.Producible →
    chain.AllLeaves Lexeme.IsWritten
  | .only condition body, ⟨conditionOk, bodyOk⟩ =>
    ⟨Expr.leaves_written condition conditionOk, Statement.leaves_written_all body bodyOk⟩
  | .otherwise condition body other, ⟨conditionOk, bodyOk, otherOk⟩ =>
    ⟨Expr.leaves_written condition conditionOk, Statement.leaves_written_all body bodyOk,
      Statement.leaves_written_all other otherOk⟩
  | .elif condition body next, ⟨conditionOk, bodyOk, nextOk⟩ =>
    ⟨Expr.leaves_written condition conditionOk, Statement.leaves_written_all body bodyOk,
      Conditional.leaves_written next nextOk⟩

theorem Statement.leaves_written_all : ∀ body : Block, Statement.AllProducible body →
    Statement.AllLeavesOfAll Lexeme.IsWritten body
  | [], _ => trivial
  | statement :: others, ⟨statementOk, othersOk⟩ =>
    ⟨Statement.leaves_written statement statementOk, Statement.leaves_written_all others othersOk⟩

end

theorem Statement.legible_all (body : Block) (depth : Nat) (producible : Statement.AllProducible body) :
    Legible (Statement.piecesOfAll depth body) :=
  Statement.spaced_all admits_isSpelled body depth (Statement.leaves_written_all body producible)

/-! ## Programs -/

/-- Legible pieces are parsed as what their lexemes are derived for. -/
theorem parse_of_legible (form : PrintForm) {pieces : List Piece} (legible : Legible pieces)
    {program : Program} (derived : Derives nestingLimit (.statements program) (words pieces)) :
    parse (String.ofList (writeAll form pieces)) = .ok program := by
  obtain ⟨body, finish, tokenized, last, inner, lexemes⟩ := tokenize_of_legible form legible
  have parsed : parseTokens (body ++ [finish]) = .ok program := by
    refine (parseTokensWithin_eq_ok_iff inner last).mpr ?_
    rw [List.map_append, lexemes]
    exact .program derived last
  rw [parse, tokenized]
  exact parsed

/-- However it was built, a producible tree that opens no more levels than may be open at once is
parsed from what it is printed as, in either form. -/
theorem parse_printProgram (form : PrintForm) {program : Program}
    (producible : Statement.AllProducible program)
    (shallow : Statement.depthOfAll program ≤ nestingLimit) :
    parse (printProgram form program) = .ok program :=
  parse_of_legible form (Statement.legible_all program 0 producible)
    (Statement.derives_all program nestingLimit 0 producible shallow)

/-- `hardcode 0 to 1 as i { if a - (b - c) {} elif f()['"']<@s> { return; } };` -/
def branching : Program :=
  [.range (.ofCode false 0) (.ofCode false 0x3FF0000000000000) "i" [.conditional
    (.elif (.binary .subtract (.name "a") (.binary .subtract (.name "b") (.name "c"))) []
      (.only (.selected (.member (.call "f" []) (.text "\"")) "@s") [.returning []]))]]

theorem parse_branching :
    Statement.AllProducible branching ∧ Statement.depthOfAll branching ≤ nestingLimit ∧
      parse (printProgram .pretty branching) = .ok branching ∧
      parse (printProgram .compact branching) = .ok branching := by
  have isName : ∀ name ∈ ["a", "b", "c", "f", "i"], IsName name.toList := by
    simp only [List.forall_mem_cons]
    refine ⟨?_, ?_, ?_, ?_, ?_, List.forall_mem_nil _⟩ <;>
      exact ⟨by decide, List.all_eq_true.mp rfl, rfl⟩
  have producible : Statement.AllProducible branching := by
    refine ⟨⟨⟨rfl, rfl⟩, ⟨rfl, rfl⟩, isName _ (by simp), ⟨⟨?_, trivial, ?_⟩, trivial⟩⟩, trivial⟩
    · exact ⟨isName _ (by simp), isName _ (by simp), isName _ (by simp)⟩
    · refine ⟨⟨rfl, ⟨rfl, ⟨isName _ (by simp), trivial⟩, ?_⟩, rfl, by decide⟩, trivial, trivial⟩
      exact .inr (by decide)
  have shallow : Statement.depthOfAll branching ≤ nestingLimit := by decide
  exact ⟨producible, shallow, parse_printProgram .pretty producible shallow,
    parse_printProgram .compact producible shallow⟩

end BlockScript
